import CypherCompiler.Proofs.Creation.Objects
import CypherCompiler.Proofs.Hoisting.InPlace
import CypherCompiler.Proofs.Outcome.Failure
import CypherCompiler.Proofs.Outcome.Mutation

namespace CypherCompiler

open CreatedObject (parameterName suppliedValue)

-- A text, a number or a truth value.
inductive Json.IsPlain : Json → Prop
  | str (s : String) : IsPlain (.str s)
  | number (n : Json.Number) : IsPlain (.number n)
  | bool (b : Bool) : IsPlain (.bool b)

-- A plain value for a scalar field that tells one node of the type from all others.
def NodeType.TellsApart (type : NodeType) (member : String × Json) : Prop :=
  ∃ field, type.field? member.1 = some field ∧ field.scalar?.isSome = true ∧
    (field.id = true ∨ field.unique = true ∨ type.primaryKey = some member.1) ∧ member.2.IsPlain

-- An object that identifies one node of the type, with its members.
def NodeType.IdentifiedBy (type : NodeType) (argument : Option Json)
    (members : Json.Members) : Prop :=
  argument = some (.obj members) ∧ members ≠ [] ∧ ∀ m ∈ members, type.TellsApart m

-- Why a value identifies no node: it holds no keys, or the first key that does not tell nodes
-- apart is no field of the type, or is one that does not.
inductive NodeType.KeyFault (type : NodeType) (argument : Option Json) : RequestError → Prop
  | noKeys (h : ∀ members, argument = some (.obj members) → members = []) :
      KeyFault type argument (.ambiguousMatch type.name "")
  | unknown {before after : Json.Members} {key : String} {v : Json}
      (h : argument = some (.obj (before ++ (key, v) :: after)))
      (hbefore : ∀ m ∈ before, type.TellsApart m) (hkey : type.field? key = none) :
      KeyFault type argument (.invalidFilterField key)
  | ambiguous {members before after : Json.Members} {key : String} {v : Json} {field : Field}
      (h : argument = some (.obj members)) (hsplit : members = before ++ (key, v) :: after)
      (hbefore : ∀ m ∈ before, type.TellsApart m) (hfield : type.field? key = some field)
      (hkey : ¬ type.TellsApart (key, v)) :
      KeyFault type argument
        (.ambiguousMatch type.name (String.intercalate ", " (members.map Prod.fst)))

theorem except_mapM_of_forall {α β ε : Type} {f : α → Except ε β} {g : α → β} {as : List α}
    (h : ∀ a ∈ as, f a = .ok (g a)) : as.mapM f = .ok (as.map g) := by
  rw [except_mapM_eq_ok_iff, List.forall₂_map_right_iff, List.forall₂_same]
  exact h

-- The first element that fails decides.
theorem except_mapM_of_error {α β ε : Type} {f : α → Except ε β} {g : α → β}
    {before after : List α} {a : α} {e : ε} (hbefore : ∀ b ∈ before, f b = .ok (g b))
    (ha : f a = .error e) : (before ++ a :: after).mapM f = .error e := by
  rw [List.mapM_append, except_mapM_of_forall hbefore, List.mapM_cons, ha]
  rfl

theorem exists_first_not {α : Type} (P : α → Prop) (as : List α) :
    (∀ a ∈ as, P a) ∨
      ∃ before a after, as = before ++ a :: after ∧ (∀ b ∈ before, P b) ∧ ¬ P a := by
  induction as with
  | nil => simp
  | cons a rest ih =>
      by_cases ha : P a
      · obtain hall | ⟨before, b, after, rfl, hbefore, hb⟩ := ih
        · exact .inl (List.forall_mem_cons.mpr ⟨ha, hall⟩)
        · exact .inr ⟨a :: before, b, after, rfl, List.forall_mem_cons.mpr ⟨ha, hbefore⟩, hb⟩
      · exact .inr ⟨[], a, rest, rfl, by simp, ha⟩

namespace KeyMatch

variable {type : NodeType} {members : Json.Members} {argument : Option Json}

theorem isPlain_iff {v : Json} : isPlain v = true ↔ v.IsPlain := by
  constructor
  · intro h
    cases v with
    | str s => exact .str s
    | number n => exact .number n
    | bool b => exact .bool b
    | null | arr | obj => cases h
  · rintro (_ | _ | _) <;> rfl

theorem tellsApart_iff {key : String} {v : Json} :
    type.TellsApart (key, v) ↔ isPlain v = true ∧ type.isUniqueKey key = true := by
  unfold NodeType.TellsApart NodeType.isUniqueKey
  rw [isPlain_iff]
  cases hfield : type.field? key with
  | none => simp
  | some field =>
      simp only [Option.some.injEq, exists_eq_left', Bool.and_eq_true, Bool.or_eq_true, beq_iff_eq]
      tauto

-- Each key is checked on its own.
theorem value_of_tellsApart (keys : List String) {key : String} {v : Json}
    (h : type.TellsApart (key, v)) :
    value type keys key v = .ok (key, suppliedValue type key v) := by
  have hchecked := tellsApart_iff.mp h
  obtain ⟨field, hfield, hscalar, -⟩ := h
  obtain ⟨scalar, hscalar⟩ := Option.isSome_iff_exists.mp hscalar
  simp only at hfield
  unfold value suppliedValue
  simp [hfield, hscalar, hchecked]

theorem value_of_not_tellsApart (keys : List String) {key : String} {v : Json} {field : Field}
    (hfield : type.field? key = some field) (h : ¬ type.TellsApart (key, v)) :
    value type keys key v =
      .error (.ambiguousMatch type.name (String.intercalate ", " keys)) := by
  rw [tellsApart_iff, ← Bool.and_eq_true] at h
  unfold value
  simp only [hfield]
  split
  · rw [if_neg h]
  · rfl

theorem values_of_identified (hmembers : members ≠ []) (h : ∀ m ∈ members, type.TellsApart m) :
    values type members = .ok (members.map fun m => (m.1, suppliedValue type m.1 m.2)) := by
  rw [values, if_neg (by simpa using hmembers)]
  exact except_mapM_of_forall fun m hm => value_of_tellsApart _ (h m hm)

-- The first key that does not tell nodes apart gives the error.
theorem values_of_fault {e : RequestError} (h : type.KeyFault argument e) :
    values type ((argument.bind Json.asObject?).getD []) = .error e := by
  cases h with
  | noKeys h =>
      have hnone : (argument.bind Json.asObject?).getD [] = [] := by
        cases hobject : argument.bind Json.asObject? with
        | none => rfl
        | some members =>
            obtain ⟨v, rfl, hv⟩ := Option.bind_eq_some_iff.mp hobject
            cases v with
            | obj found =>
                cases hv
                exact h _ rfl
            | _ => cases hv
      rw [hnone]
      rfl
  | @unknown before after key v h hbefore hkey =>
      subst h
      have hvalue (keys : List String) :
          value type keys key v = .error (.invalidFilterField key) := by
        simp [value, hkey]
      rw [values, if_neg (by simp [Json.asObject?])]
      exact except_mapM_of_error (fun m hm => value_of_tellsApart _ (hbefore m hm)) (hvalue _)
  | ambiguous h hsplit hbefore hfield hkey =>
      subst h hsplit
      rw [values, if_neg (by simp [Json.asObject?])]
      exact except_mapM_of_error (fun m hm => value_of_tellsApart _ (hbefore m hm))
        (value_of_not_tellsApart _ hfield hkey)

-- A value identifies a node or is at fault.
theorem identified_or_fault (type : NodeType) (argument : Option Json) :
    (∃ members, type.IdentifiedBy argument members) ∨ ∃ e, type.KeyFault argument e := by
  by_cases hnone : ∀ members, argument = some (.obj members) → members = []
  · exact .inr ⟨_, .noKeys hnone⟩
  · push Not at hnone
    obtain ⟨members, rfl, hmembers⟩ := hnone
    obtain hall | ⟨before, m, after, hsplit, hbefore, hm⟩ :=
      exists_first_not type.TellsApart members
    · exact .inl ⟨members, rfl, hmembers, hall⟩
    · obtain ⟨key, v⟩ := m
      cases hfield : type.field? key with
      | none => exact .inr ⟨_, .unknown (by rw [hsplit]) hbefore hfield⟩
      | some field => exact .inr ⟨_, .ambiguous rfl hsplit hbefore hfield hm⟩

theorem not_identified_of_fault {e : RequestError} (h : type.KeyFault argument e) :
    ¬ type.IdentifiedBy argument members := by
  rintro ⟨rfl, hmembers, hall⟩
  have hchecked := values_of_identified hmembers hall
  have hfault := values_of_fault h
  cases hchecked.symm.trans hfault

variable {path : ParameterPath} {d : Draft}

-- What the emitted map binds each key to, and the values that are taken out for it.
def bound (path : ParameterPath) (members : Json.Members) : List (String × String) :=
  members.map fun m => (m.1, parameterName path m.1)

theorem bound_keys (path : ParameterPath) (members : Json.Members) :
    (bound path members).map Prod.fst = members.keys := by
  rw [bound, List.map_map]
  rfl

def hoisted (type : NodeType) (path : ParameterPath) (members : Json.Members) : Json.Members :=
  members.map fun m => (parameterName path m.1, suppliedValue type m.1 m.2)

-- Keys that identify a node are taken as they stand, unless a name is in use.
theorem readArgument_of_identified (path : ParameterPath) (d : Draft)
    (h : type.IdentifiedBy argument members) :
    (∃ d', readArgument type path argument d = .ok (bound path members, d') ∧
      d'.aliases = d.aliases ∧
      d'.parameters.members = d.parameters.members ++ hoisted type path members) ∨
    ∃ name, readArgument type path argument d = .error (.parameterCollision name) := by
  obtain ⟨rfl, hmembers, hall⟩ := h
  have hvalues := values_of_identified hmembers hall
  have hread : readArgument type path (some (.obj members)) d = read type path members d := rfl
  rw [hread]
  cases hrun : read type path members d with
  | ok r =>
      obtain ⟨keys, d'⟩ := r
      obtain ⟨checked, hchecked, rfl, haliases, hparameters⟩ := read_cases hrun
      cases hchecked.symm.trans hvalues
      refine .inl ⟨d', ?_, haliases, ?_⟩
      · rw [List.map_map]
        rfl
      · rw [hparameters, List.map_map]
        rfl
  | error e =>
      have hcollides : StepFailsOnly (fun e => ∃ name, e = .parameterCollision name)
          (read type path members) := by
        refine .lift_ok hvalues (.mapM (fun entry => ?_) _)
        refine .followedBy (fun d => ?_) fun _ => .of_pure _
        refine FailsOnly.map (FailsOnly.map ?_ _) _
        unfold Parameters.insert
        split
        · exact .error ⟨_, rfl⟩
        · exact .ok _
      obtain ⟨name, rfl⟩ := hcollides d e hrun
      exact .inr ⟨name, rfl⟩

theorem readArgument_of_fault {e : RequestError} (h : type.KeyFault argument e) :
    readArgument type path argument d = .error e := by
  have hvalues := values_of_fault h
  unfold readArgument read
  rw [hvalues]
  rfl

end KeyMatch

namespace KeyMatch

variable {type : NodeType} {argument : Option Json}

-- How keys are read on a map that is changed in place.
def readInPlace (type : NodeType) (path : ParameterPath) (argument : Option Json) :
    InPlace (List (String × String)) := do
  let checked ← (values type ((argument.bind Json.asObject?).getD []) : Except RequestError _)
  checked.mapM fun (key, v) => do return (key, ← InPlace.value (path.child key) v)

-- It is the same reading.
theorem readInPlace_forget (type : NodeType) (path : ParameterPath) (argument : Option Json) :
    Drafting.hoist (readInPlace type path argument).forget = readArgument type path argument := by
  have hkey (entry : String × Json) :
      Drafting.hoist (do return (entry.1, ← InPlace.value (path.child entry.1) entry.2) :
        InPlace (String × String)).forget =
      (do return (entry.1, ← Drafting.value (path.child entry.1) entry.2)) := by
    rw [InPlace.forget_bind, Drafting.hoist_bind, InPlace.forget_value]
    rfl
  have hkeys (checked : List (String × Json)) :
      Drafting.hoist (checked.mapM fun (entry : String × Json) =>
        (do return (entry.1, ← InPlace.value (path.child entry.1) entry.2) :
          InPlace (String × String))).forget =
      checked.mapM fun entry => do
        return (entry.1, ← Drafting.value (path.child entry.1) entry.2) := by
    induction checked with
    | nil => rfl
    | cons entry rest ih =>
        rw [List.mapM_cons, List.mapM_cons, InPlace.forget_bind, Drafting.hoist_bind, hkey]
        congr 1
        funext first
        rw [InPlace.forget_bind, Drafting.hoist_bind, ih]
        rfl
  unfold readInPlace readArgument read
  rw [InPlace.forget_bind, Drafting.hoist_bind]
  cases values type ((argument.bind Json.asObject?).getD []) with
  | ok checked => exact hkeys checked
  | error e => rfl

-- All keys are checked before the first value is put into the map.
theorem readInPlace_of_fault {e : RequestError} (h : type.KeyFault argument e)
    (path : ParameterPath) (ps : Parameters) :
    (readInPlace type path argument).runOn ps = (.error e, ps) := by
  have hvalues := values_of_fault h
  unfold readInPlace
  rw [InPlace.runOn_bind, hvalues]
  rfl

end KeyMatch

end CypherCompiler
