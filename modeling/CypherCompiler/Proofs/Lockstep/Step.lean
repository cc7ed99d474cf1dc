import CypherCompiler.Compilation.Draft
import CypherCompiler.Proofs.Outcome.Step

namespace CypherCompiler

-- Two runs that end alike: with related results, or with the same error.
inductive Agree {ε α β : Type} (R : α → β → Prop) : Except ε α → Except ε β → Prop
  | ok {a : α} {b : β} (h : R a b) : Agree R (.ok a) (.ok b)
  | error (e : ε) : Agree R (.error e) (.error e)

theorem Agree.bind {ε α β γ δ : Type} {R : α → β → Prop} {Q : γ → δ → Prop} {x : Except ε α}
    {y : Except ε β} {f : α → Except ε γ} {g : β → Except ε δ} (h : Agree R x y)
    (hf : ∀ a b, R a b → Agree Q (f a) (g b)) : Agree Q (x >>= f) (y >>= g) := by
  cases h with
  | ok h => exact hf _ _ h
  | error e => exact .error e

theorem Agree.refl {ε α : Type} (x : Except ε α) : Agree Eq x x := by
  cases x with
  | ok a => exact .ok rfl
  | error e => exact .error e

-- Two steps that end alike wherever their states are related, and keep them related.
def Lockstep {σ ε α β : Type} (S : σ → σ → Prop) (R : α → β → Prop)
    (x : StateT σ (Except ε) α) (y : StateT σ (Except ε) β) : Prop :=
  ∀ s t, S s t → Agree (fun p q => R p.1 q.1 ∧ S p.2 q.2) (x s) (y t)

section

variable {σ ε α β γ δ : Type} {S : σ → σ → Prop} {R : α → β → Prop} {Q : γ → δ → Prop}

theorem Lockstep.bind {x : StateT σ (Except ε) α} {y : StateT σ (Except ε) β}
    {f : α → StateT σ (Except ε) γ} {g : β → StateT σ (Except ε) δ} (h : Lockstep S R x y)
    (hf : ∀ a b, R a b → Lockstep S Q (f a) (g b)) : Lockstep S Q (x >>= f) (y >>= g) := by
  intro s t hst
  exact (h s t hst).bind fun p q hpq => hf p.1 q.1 hpq.1 p.2 q.2 hpq.2

-- Steps with equal results, which is how most of them go on.
theorem Lockstep.andThen {x y : StateT σ (Except ε) α} {f : α → StateT σ (Except ε) γ}
    {g : α → StateT σ (Except ε) δ} (h : Lockstep S Eq x y)
    (hf : ∀ a, Lockstep S Q (f a) (g a)) : Lockstep S Q (x >>= f) (y >>= g) :=
  h.bind fun a _ hab => hab ▸ hf a

theorem lockstep_pure {a : α} {b : β} (h : R a b) :
    Lockstep S R (pure a : StateT σ (Except ε) α) (pure b) :=
  fun _ _ hst => .ok ⟨h, hst⟩

theorem lockstep_throw (e : ε) :
    Lockstep S R (throw e : StateT σ (Except ε) α) (throw e) :=
  fun _ _ _ => .error e

theorem lockstep_lift {x : Except ε α} {y : Except ε β} (h : Agree R x y) :
    Lockstep S R (liftM x : StateT σ (Except ε) α) (liftM y) := by
  intro s t hst
  cases h with
  | ok h => exact .ok ⟨h, hst⟩
  | error e => exact .error e

-- A step that only looks at what both runs share.
theorem lockstep_shared (x : Except ε α) :
    Lockstep S Eq (liftM x : StateT σ (Except ε) α) (liftM x) :=
  lockstep_lift (.refl x)

end

-- Parameters that differ in their values only.
def Parameters.SameNames (ps qs : Parameters) : Prop := ps.names = qs.names

def Draft.SameNames (d e : Draft) : Prop :=
  d.aliases = e.aliases ∧ d.parameters.SameNames e.parameters

namespace Parameters

variable {ps qs : Parameters}

theorem SameNames.contains_eq (h : ps.SameNames qs) (name : String) :
    ps.contains name = qs.contains name := by
  rw [Bool.eq_iff_iff, contains_iff, contains_iff, h]

theorem SameNames.append (h : ps.SameNames qs) (name : String) (v w : Json) :
    SameNames ⟨ps.members ++ [(name, v)]⟩ ⟨qs.members ++ [(name, w)]⟩ := by
  unfold SameNames at h
  simpa [SameNames, names, Json.Members.keys] using h

theorem SameNames.share (h : ps.SameNames qs) (name : String) (v w : Json) :
    (ps.share name v).SameNames (qs.share name w) := by
  unfold Parameters.share
  rw [h.contains_eq name]
  split
  · exact h
  · exact h.append name v w

end Parameters

-- Steps that depend on no value.
abbrev HoistsAlike {α β : Type} (R : α → β → Prop) (x : Hoist α) (y : Hoist β) : Prop :=
  Lockstep Parameters.SameNames R x y

abbrev DraftsAlike {α β : Type} (R : α → β → Prop) (x : Drafting α) (y : Drafting β) : Prop :=
  Lockstep Draft.SameNames R x y

namespace Hoist

theorem value_lockstep (path : ParameterPath) (v w : Json) :
    HoistsAlike Eq (value path v) (value path w) := by
  intro ps qs h
  unfold value Parameters.insert
  rw [h.contains_eq path.name]
  split
  · exact .error _
  · exact .ok ⟨rfl, h.append path.name v w⟩

-- What one run leaves out the other one leaves out as well.
theorem orSkip_lockstep {α : Type} {strict : Bool} {x y : Hoist α} (h : HoistsAlike Eq x y) :
    HoistsAlike Eq (orSkip strict x) (orSkip strict y) := by
  intro ps qs hps
  have hxy := h ps qs hps
  unfold orSkip
  generalize x ps = first at hxy
  generalize y qs = second at hxy
  cases hxy with
  | ok hpq => exact .ok ⟨congrArg some hpq.1, hpq.2⟩
  | error e =>
      cases e with
      | invalidFilterField key =>
          cases strict with
          | true => exact .error _
          | false => exact .ok ⟨rfl, hps⟩
      | _ => exact .error _

end Hoist

namespace Drafting

theorem hoist_lockstep {α : Type} {x y : Hoist α} (h : HoistsAlike Eq x y) :
    DraftsAlike Eq (hoist x) (hoist y) := by
  intro d e hde
  have hxy := h d.parameters e.parameters hde.2
  unfold hoist
  generalize x d.parameters = first at hxy
  generalize y e.parameters = second at hxy
  cases hxy with
  | ok hpq => exact .ok ⟨hpq.1, hde.1, hpq.2⟩
  | error e => exact .error e

theorem value_lockstep (path : ParameterPath) (v w : Json) :
    DraftsAlike Eq (value path v) (value path w) :=
  hoist_lockstep (Hoist.value_lockstep path v w)

theorem share_lockstep (name : String) (v w : Json) :
    DraftsAlike Eq (share name v) (share name w) :=
  fun _ _ hde => .ok ⟨rfl, hde.1, hde.2.share name v w⟩

theorem plan_lockstep (make : AliasRegistry → Except RequestError (Plan × AliasRegistry)) :
    DraftsAlike Eq (plan make) (plan make) := by
  intro d e hde
  unfold plan
  rw [hde.1]
  cases make e.aliases with
  | ok r => exact .ok ⟨rfl, rfl, hde.2⟩
  | error e => exact .error e

theorem claim_lockstep (base : String) : DraftsAlike Eq (claim base) (claim base) := by
  intro d e hde
  unfold claim
  rw [hde.1]
  exact .ok ⟨rfl, rfl, hde.2⟩

theorem reserve_lockstep (name : String) : DraftsAlike Eq (reserve name) (reserve name) := by
  rintro d e ⟨haliases, hparameters⟩
  exact .ok ⟨rfl, congrArg (AliasRegistry.reserve · name) haliases, hparameters⟩

end Drafting

end CypherCompiler
