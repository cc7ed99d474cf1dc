import CypherCompiler.Compilation.Basic
import CypherCompiler.Proofs.Outcome.Step

namespace CypherCompiler

section

variable {σ α β : Type} {E F : RequestError → Prop}

-- A check that fails with errors of one kind only.
def FailsOnly (E : RequestError → Prop) (x : Except RequestError α) : Prop :=
  ∀ e, x = .error e → E e

namespace FailsOnly

theorem ok (a : α) : FailsOnly E (.ok a) := by
  intro e he
  cases he

theorem error {e : RequestError} (h : E e) : FailsOnly E (.error e : Except RequestError α) := by
  intro e' he
  cases he
  exact h

theorem of_exists {x : Except RequestError α} (h : ∃ a, x = .ok a) : FailsOnly E x := by
  obtain ⟨a, rfl⟩ := h
  exact ok a

theorem mono {x : Except RequestError α} (h : FailsOnly E x) (hsub : ∀ e, E e → F e) :
    FailsOnly F x :=
  fun e he => hsub e (h e he)

theorem bind {x : Except RequestError α} {f : α → Except RequestError β} (h : FailsOnly E x)
    (hf : ∀ a, x = .ok a → FailsOnly E (f a)) : FailsOnly E (x >>= f) := by
  cases x with
  | ok a => exact hf a rfl
  | error e => exact error (h e rfl)

theorem map {x : Except RequestError α} (h : FailsOnly E x) (f : α → β) :
    FailsOnly E (x.map f) := by
  cases x with
  | ok a => exact ok (f a)
  | error e => exact error (h e rfl)

theorem mapM {f : α → Except RequestError β} {as : List α} (hf : ∀ a ∈ as, FailsOnly E (f a)) :
    FailsOnly E (as.mapM f) := by
  induction as with
  | nil => exact ok []
  | cons a rest ih =>
      obtain ⟨ha, hrest⟩ := List.forall_mem_cons.mp hf
      rw [List.mapM_cons]
      exact ha.bind fun _ _ => (ih hrest).bind fun _ _ => ok _

end FailsOnly

-- A step that fails so, whatever it starts from.
def StepFailsOnly (E : RequestError → Prop) (x : StateT σ (Except RequestError) α) : Prop :=
  ∀ s, FailsOnly E (x s)

namespace StepFailsOnly

variable {x : StateT σ (Except RequestError) α} {f : α → StateT σ (Except RequestError) β}

theorem of_pure (a : α) : StepFailsOnly E (pure a : StateT σ (Except RequestError) α) :=
  fun s => .ok (a, s)

theorem of_throw {e : RequestError} (h : E e) :
    StepFailsOnly E (throw e : StateT σ (Except RequestError) α) :=
  fun _ => .error h

theorem of_lift {check : Except RequestError α} (h : FailsOnly E check) :
    StepFailsOnly E (liftM check : StateT σ (Except RequestError) α) :=
  fun s => h.bind fun a _ => .ok (a, s)

theorem bind (h : StepFailsOnly E x) (hf : ∀ a s t, x s = .ok (a, t) → StepFailsOnly E (f a)) :
    StepFailsOnly E (x >>= f) :=
  fun s => (h s).bind fun p hp => hf p.1 s p.2 hp p.2

theorem followedBy (h : StepFailsOnly E x) (hf : ∀ a, StepFailsOnly E (f a)) :
    StepFailsOnly E (x >>= f) :=
  h.bind fun a _ _ _ => hf a

-- What follows a check may rely on its outcome.
theorem lift_bind {check : Except RequestError α} (h : FailsOnly E check)
    (hf : ∀ a, check = .ok a → StepFailsOnly E (f a)) :
    StepFailsOnly E ((liftM check : StateT σ (Except RequestError) α) >>= f) := by
  refine (of_lift h).bind fun a s t hrun => ?_
  obtain ⟨_, hcheck, hr⟩ := lift_eq_ok.mp hrun
  cases hr
  exact hf a hcheck

theorem lift_ok {check : Except RequestError α} {a : α} (hcheck : check = .ok a)
    (hf : StepFailsOnly E (f a)) :
    StepFailsOnly E ((liftM check : StateT σ (Except RequestError) α) >>= f) := by
  refine lift_bind (.of_exists ⟨a, hcheck⟩) fun b hb => ?_
  obtain rfl : b = a := Except.ok.inj (hb.symm.trans hcheck)
  exact hf

theorem mapM {f : α → StateT σ (Except RequestError) β} (hf : ∀ a, StepFailsOnly E (f a))
    (as : List α) : StepFailsOnly E (as.mapM f) := by
  induction as with
  | nil => exact of_pure []
  | cons a rest ih =>
      rw [List.mapM_cons]
      exact (hf a).followedBy fun _ => ih.followedBy fun _ => of_pure _

end StepFailsOnly

end

-- An error that lies with the request alone: neither the schema, nor what the caller may do, nor a
-- name that was given out before has a part in it.
def RequestError.FaultsRequest : RequestError → Prop
  | .schemaInconsistency _ | .forbidden _ | .parameterCollision _ => False
  | _ => True

theorem FilterKey.read_faultsRequest (type : NodeType) (key : String) :
    FailsOnly RequestError.FaultsRequest (FilterKey.read type key) := by
  unfold FilterKey.read
  split
  · exact .ok _
  · exact .error trivial

namespace Selection

theorem groupByPath_faultsRequest (s : Selection) :
    FailsOnly RequestError.FaultsRequest s.groupByPath := by
  unfold groupByPath
  split
  · exact .ok _
  · exact .ok _
  · exact .error trivial

theorem orderTerms_faultsRequest (s : Selection) (type : NodeType) (node : String)
    (score : Option String) :
    FailsOnly RequestError.FaultsRequest (s.orderTerms type node score) := by
  have hread (v : Json) : FailsOnly RequestError.FaultsRequest (OrderItem.readValue type v) := by
    unfold OrderItem.readValue OrderItem.read
    split
    · split
      · split
        · exact .ok _
        · exact .error trivial
      · exact .error trivial
    · exact .error trivial
  unfold orderTerms OrderItem.readAll
  refine FailsOnly.bind ?_ fun items _ => ?_
  · split
    · exact .ok _
    · exact .mapM fun v _ => hread v
    · exact (hread _).bind fun _ _ => .ok _
  · split <;> exact .ok _

theorem pagination_faultsRequest (s : Selection) :
    FailsOnly RequestError.FaultsRequest (Pagination.ofSelection s) := by
  have hbound (argument : String) (least fallback : Int) (v : Option Json) :
      FailsOnly RequestError.FaultsRequest (Pagination.bound argument least fallback v) := by
    unfold Pagination.bound
    split
    · exact .ok _
    · split
      · split
        · exact .error trivial
        · exact .ok _
      · exact .error trivial
  exact (hbound _ _ _ _).bind fun _ _ => (hbound _ _ _ _).bind fun _ _ => .ok _

end Selection

theorem KeyMatch.values_faultsRequest (type : NodeType) (members : Json.Members) :
    FailsOnly RequestError.FaultsRequest (KeyMatch.values type members) := by
  have hvalue (keys : List String) (key : String) (v : Json) :
      FailsOnly RequestError.FaultsRequest (KeyMatch.value type keys key v) := by
    unfold KeyMatch.value
    split
    · exact .error trivial
    · split
      · split
        · exact .ok _
        · exact .error trivial
      · exact .error trivial
  unfold KeyMatch.values
  split
  · exact .error trivial
  · exact .mapM fun m _ => hvalue members.keys m.1 m.2

namespace Mutation

theorem relatedItems_faultsRequest (field : Field) (v : Json) :
    FailsOnly RequestError.FaultsRequest (relatedItems field v) := by
  unfold relatedItems
  split
  · exact .ok _
  · split
    · exact .ok _
    · exact .error trivial
  · exact .error trivial

theorem data_faultsRequest (s : Selection) :
    FailsOnly RequestError.FaultsRequest (data s) := by
  unfold data
  split
  · exact .ok _
  · exact .error trivial

end Mutation

end CypherCompiler
