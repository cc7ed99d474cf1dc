import CypherCompiler.Proofs.Collision.Check
import CypherCompiler.Proofs.Collision.Token
import CypherCompiler.Proofs.Outcome.Step
import Mathlib.Data.Set.Lattice
import Mathlib.Order.CompletePartialOrder

namespace CypherCompiler

open Text

section

variable {α β : Type}

-- The tokens of the names that a part of a statement may give out.
abbrev Region := Set (List String)

variable {σ : Type}

-- No name of the region has been given out. The caller's variables do not count.
structure Unused (names : σ → List String) (R : Region) (s : σ) : Prop where
  ambient : tokens cypherParamsName ∉ R
  unused : ∀ n ∈ names s, tokens n ∉ R

-- How a run ends that gives out names of the region only, and none of them twice.
inductive Drawn (names : σ → List String) (R : Region) (before : σ) :
    Except RequestError (α × σ) → Prop
  | ok {a : α} {after : σ}
      (h : ∀ n ∈ names after, n ∈ names before ∨ n = cypherParamsName ∨ tokens n ∈ R) :
      Drawn names R before (.ok (a, after))
  | error {e : RequestError} (h : ∀ name, e ≠ .parameterCollision name) :
      Drawn names R before (.error e)

-- A step that never collides as long as no name of its region has been given out before.
def Draws (names : σ → List String) (R : Region) (step : StateT σ (Except RequestError) α) :
    Prop :=
  ∀ s, Unused names R s → Drawn names R s (step s)

variable {names : σ → List String} {R S T : Region}
  {x : StateT σ (Except RequestError) α} {f : α → StateT σ (Except RequestError) β}

namespace Draws

theorem mono (h : Draws names R x) (hsub : R ⊆ T) : Draws names T x := by
  intro s hs
  have hR : Unused names R s :=
    ⟨fun hcp => hs.ambient (hsub hcp), fun n hn hmem => hs.unused n hn (hsub hmem)⟩
  have hx := h s hR
  generalize x s = r at hx
  cases hx with
  | ok hnames => exact .ok fun n hn => (hnames n hn).imp_right (Or.imp_right fun hmem => hsub hmem)
  | error he => exact .error he

-- Two steps that draw from regions without a name in common.
theorem bind (h : Draws names R x)
    (hf : ∀ a s t, x s = .ok (a, t) → Draws names S (f a)) (hdisjoint : Disjoint R S) :
    Draws names (R ∪ S) (x >>= f) := by
  intro s hs
  have hR : Unused names R s :=
    ⟨fun hcp => hs.ambient (.inl hcp), fun n hn hmem => hs.unused n hn (.inl hmem)⟩
  have hx := h s hR
  change Drawn names (R ∪ S) s (x s >>= fun p => f p.1 p.2)
  cases hrun : x s with
  | error e =>
      rw [hrun] at hx
      cases hx with
      | error he => exact .error he
  | ok p =>
      obtain ⟨a, t⟩ := p
      rw [hrun] at hx
      cases hx with
      | ok hnames =>
          -- what the first step gave out lies in its own region
          have hS : Unused names S t := by
            refine ⟨fun hcp => hs.ambient (.inr hcp), ?_⟩
            intro n hn hmem
            obtain hold | rfl | hnew := hnames n hn
            · exact hs.unused n hold (.inr hmem)
            · exact hs.ambient (.inr hmem)
            · exact Set.disjoint_left.mp hdisjoint hnew hmem
          have hrest := hf a s t hrun t hS
          change Drawn names (R ∪ S) s (f a t)
          generalize f a t = r at hrest
          cases hrest with
          | error he => exact .error he
          | ok hmore =>
              refine .ok fun n hn => ?_
              obtain hold | hcp | hnew := hmore n hn
              · exact (hnames n hold).imp_right (Or.imp_right .inl)
              · exact .inr (.inl hcp)
              · exact .inr (.inr (.inr hnew))

-- What comes before gives out nothing.
theorem after (h : Draws names ∅ x) (hf : ∀ a s t, x s = .ok (a, t) → Draws names S (f a)) :
    Draws names S (x >>= f) := by
  have hboth := h.bind hf (Set.empty_disjoint S)
  rwa [Set.empty_union] at hboth

-- What comes after gives out nothing.
theorem before (h : Draws names R x) (hf : ∀ a, Draws names ∅ (f a)) :
    Draws names R (x >>= f) := by
  have hboth := h.bind (fun a _ _ _ => hf a) (Set.disjoint_empty R)
  rwa [Set.union_empty] at hboth

end Draws

-- The names that stand under one of several keys.
def eachOf (N : String → Region) (keys : List String) : Region :=
  {w | ∃ key ∈ keys, w ∈ N key}

-- No name stands under two keys.
def TellsKeys (N : String → Region) : Prop :=
  ∀ {key key' : String} {w : List String}, w ∈ N key → w ∈ N key' → key = key'

theorem eachOf_mono {N : String → Region} {keys more : List String} (h : keys ⊆ more) :
    eachOf N keys ⊆ eachOf N more := by
  rintro w ⟨key, hkey, hw⟩
  exact ⟨key, h hkey, hw⟩

theorem union_subset_eachOf (N : String → Region) (key : String) (keys : List String) :
    N key ∪ eachOf N keys ⊆ eachOf N (key :: keys) := by
  rintro w (hw | hw)
  · exact ⟨key, List.mem_cons_self, hw⟩
  · exact eachOf_mono (List.subset_cons_self key keys) hw

theorem TellsKeys.disjoint {N : String → Region} (htells : TellsKeys N) {key : String}
    {keys : List String} (hkey : key ∉ keys) : Disjoint (N key) (eachOf N keys) := by
  rw [Set.disjoint_left]
  rintro w hw ⟨other, hother, hw'⟩
  exact hkey (htells hw hw' ▸ hother)

-- A key, and then the keys after it.
theorem Draws.cons {N : String → Region} {key : String} {keys : List String}
    (hx : Draws names (N key) x)
    (hf : ∀ a s t, x s = .ok (a, t) → Draws names (eachOf N keys) (f a))
    (htells : TellsKeys N) (hkey : key ∉ keys) :
    Draws names (eachOf N (key :: keys)) (x >>= f) :=
  (hx.bind hf (htells.disjoint hkey)).mono (union_subset_eachOf N key keys)

-- The names that go on behind a path.
def namesBelow (start : List String) : Region :=
  {w | ∃ first more, w = start ++ first :: more}

-- The names of the entries of a list, from one index on.
def itemNames (start : List String) (key : String) (index : Nat) : Region :=
  {w | ∃ i rest, index ≤ i ∧ w = start ++ (tokens key ++ toString i :: rest)}

section

variable {start : List String} {key : String} {index : Nat}

theorem namesBelow_item_disjoint :
    Disjoint (namesBelow (start ++ tokens key ++ [toString index]))
      (itemNames start key (index + 1)) := by
  rw [Set.disjoint_left]
  rintro w ⟨first, more, rfl⟩ ⟨i, rest, hi, heq⟩
  simp only [List.append_assoc, List.append_cancel_left_eq, List.singleton_append,
    List.cons.injEq] at heq
  have := toString_injective heq.1
  omega

theorem item_subset_itemNames :
    namesBelow (start ++ tokens key ++ [toString index]) ∪ itemNames start key (index + 1) ⊆
      itemNames start key index := by
  rintro w (⟨first, more, rfl⟩ | ⟨i, rest, hi, rfl⟩)
  · exact ⟨index, first :: more, le_rfl, by simp⟩
  · exact ⟨i, rest, by omega, rfl⟩

-- An entry, and then the entries after it.
theorem Draws.item (hx : Draws names (namesBelow (start ++ tokens key ++ [toString index])) x)
    (hf : ∀ a s t, x s = .ok (a, t) → Draws names (itemNames start key (index + 1)) (f a)) :
    Draws names (itemNames start key index) (x >>= f) :=
  (hx.bind hf namesBelow_item_disjoint).mono item_subset_itemNames

end

theorem draws_pure (a : α) : Draws names R (pure a) :=
  fun _ _ => .ok fun _ hn => .inl hn

theorem draws_throw {e : RequestError} (h : ∀ name, e ≠ .parameterCollision name) :
    Draws names R (throw e : StateT σ (Except RequestError) α) :=
  fun _ _ => .error h

theorem draws_lift {check : Except RequestError α} (h : NeverCollides check) :
    Draws names R (liftM check : StateT σ (Except RequestError) α) := by
  intro s hs
  cases check with
  | ok a => exact .ok fun _ hn => .inl hn
  | error e => exact .error fun name he => h name (congrArg Except.error he)

end

-- Steps that take values out of the request, and steps that put a statement together.
abbrev HoistDraws {α : Type} (R : Region) (step : Hoist α) : Prop :=
  Draws Parameters.names R step

abbrev DraftDraws {α : Type} (R : Region) (step : Drafting α) : Prop :=
  Draws (fun d : Draft => d.parameters.names) R step

section

variable {α : Type} {R : Region}

namespace Hoist

theorem value_draws {path : ParameterPath} {v : Json} (h : tokens path.name ∈ R) :
    HoistDraws R (value path v) := by
  intro ps hps
  have hnew : path.name ∉ ps.names := fun hmem => hps.unused _ hmem h
  rw [value_eq_ok.mpr ⟨hnew, rfl⟩]
  refine .ok fun n hn => ?_
  simp only [Parameters.names, Json.Members.keys, List.map_append, List.map_cons, List.map_nil,
    List.mem_append, List.mem_singleton] at hn
  obtain hold | rfl := hn
  · exact .inl hold
  · exact .inr (.inr h)

theorem orSkip_draws {strict : Bool} {step : Hoist α} (h : HoistDraws R step) :
    HoistDraws R (orSkip strict step) := by
  intro ps hps
  have hstep := h ps hps
  unfold orSkip
  generalize step ps = r at hstep
  cases hstep with
  | ok hnames => exact .ok hnames
  | @error e he =>
      cases e with
      | invalidFilterField key =>
          cases strict with
          | true => exact .error he
          -- what a skipped step took out is put back
          | false => exact .ok fun _ hn => .inl hn
      | _ => exact .error he

end Hoist

namespace Drafting

theorem hoist_draws {step : Hoist α} (h : HoistDraws R step) : DraftDraws R (hoist step) := by
  intro d hd
  have hstep := h d.parameters ⟨hd.ambient, hd.unused⟩
  unfold hoist
  generalize step d.parameters = r at hstep
  cases hstep with
  | ok hnames => exact .ok hnames
  | error he => exact .error he

theorem value_draws {path : ParameterPath} {v : Json} (h : tokens path.name ∈ R) :
    DraftDraws R (value path v) :=
  hoist_draws (Hoist.value_draws h)

-- The caller's variables may be brought in by several parts of a statement.
theorem share_draws (v : Json) : DraftDraws R (share cypherParamsName v) := by
  intro d hd
  refine .ok fun n hn => ?_
  simp only [Parameters.share] at hn
  split at hn
  · exact .inl hn
  · simp only [Parameters.names, Json.Members.keys, List.map_append, List.map_cons,
      List.map_nil, List.mem_append, List.mem_singleton] at hn
    exact hn.imp_right .inl

theorem plan_draws {make : AliasRegistry → Except RequestError (Plan × AliasRegistry)}
    (h : ∀ aliases, NeverCollides (make aliases)) : DraftDraws R (plan make) := by
  intro d hd
  have hmake := h d.aliases
  unfold plan
  cases hrun : make d.aliases with
  | ok r => exact .ok fun _ hn => .inl hn
  | error e =>
      refine .error fun name he => ?_
      exact hmake name (by rw [hrun, he])

theorem claim_draws (base : String) : DraftDraws R (claim base) :=
  fun _ _ => .ok fun _ hn => .inl hn

theorem reserve_draws (name : String) : DraftDraws R (reserve name) :=
  fun _ _ => .ok fun _ hn => .inl hn

end Drafting

end

end CypherCompiler
