import CypherCompiler.Filter.Reading

namespace CypherCompiler

-- What a reader of filters changes in place: the values taken out so far, and how many negations
-- stand around the member that it reads.
structure FilterReader where
  parameters : Parameters
  negations : Nat

-- A step of the reader. A failure leaves behind what was changed before it.
abbrev Counting := ExceptT RequestError (StateM FilterReader)

namespace Counting

variable {α β : Type}

-- The outcome of a step, and the reader after it.
def runOn (step : Counting α) (r : FilterReader) : Except RequestError α × FilterReader :=
  (step.run.run r).run

def openNegations : Counting Nat := return (← get).negations

-- A step that has nothing to do with negations.
def hoist (step : Hoist α) : Counting α := do
  let r ← get
  let (a, parameters) ← step r.parameters
  set { r with parameters }
  return a

-- The outcome of a step as a value, so that a failure does not end the reading yet.
def attempt (step : Counting α) : Counting (Except RequestError α) := ExceptT.lift step.run

-- A step under one more negation. The count goes back before a failure is handed on.
def negated (step : Counting α) : Counting α := do
  modify fun r => { r with negations := r.negations + 1 }
  let outcome ← step.attempt
  modify fun r => { r with negations := r.negations - 1 }
  outcome

theorem runOn_bind (step : Counting α) (next : α → Counting β) (r : FilterReader) :
    (step >>= next).runOn r = match step.runOn r with
      | (.ok a, after) => (next a).runOn after
      | (.error e, after) => (.error e, after) := by
  unfold runOn
  rw [ExceptT.run_bind, StateT.run_bind]
  cases StateT.run step.run r with
  | mk outcome after => cases outcome <;> rfl

theorem runOn_hoist (step : Hoist α) (r : FilterReader) :
    (hoist step).runOn r = match step r.parameters with
      | .ok (a, parameters) => (.ok a, { r with parameters })
      | .error e => (.error e, r) := by
  change (do
    let p ← (step r.parameters : Except RequestError _)
    set { r with parameters := p.2 }
    return p.1 : Counting α).runOn r = _
  cases step r.parameters <;> rfl

theorem runOn_modify (f : FilterReader → FilterReader) (r : FilterReader) :
    (modify f : Counting Unit).runOn r = (.ok (), f r) := rfl

theorem runOn_attempt (step : Counting α) (r : FilterReader) :
    step.attempt.runOn r = (.ok (step.runOn r).1, (step.runOn r).2) := rfl

theorem runOn_negated (step : Counting α) (r : FilterReader) :
    (negated step).runOn r =
      let (outcome, after) := step.runOn { r with negations := r.negations + 1 }
      (outcome, { after with negations := after.negations - 1 }) := by
  simp only [negated, runOn_bind, runOn_modify, runOn_attempt]
  cases (step.runOn { r with negations := r.negations + 1 }).1 <;> rfl

-- A step that starts with `n` open negations does what the plain one does, and leaves as many open
-- whether it fails or not.
def Mirrors (n : Nat) (plain : Hoist α) (step : Counting α) : Prop :=
  ∀ ps, (step.runOn ⟨ps, n⟩).2.negations = n ∧
    plain ps = (step.runOn ⟨ps, n⟩).1.map fun a => (a, (step.runOn ⟨ps, n⟩).2.parameters)

namespace Mirrors

variable {n : Nat} {plain : Hoist α} {step : Counting α}

theorem of_pure (a : α) : Mirrors n (pure a) (pure a) := fun _ => ⟨rfl, rfl⟩

theorem of_refuse (key : String) :
    Mirrors n (Hoist.refuse key : Hoist α) (throw (.invalidFilterField key)) := fun _ => ⟨rfl, rfl⟩

theorem of_lift (check : Except RequestError α) : Mirrors n (liftM check) (liftM check) := by
  intro ps
  cases check <;> exact ⟨rfl, rfl⟩

theorem of_hoist (plain : Hoist α) : Mirrors n plain (hoist plain) := by
  intro ps
  rw [runOn_hoist]
  cases plain ps <;> exact ⟨rfl, rfl⟩

theorem bind {plainNext : α → Hoist β} {next : α → Counting β} (h : Mirrors n plain step)
    (hnext : ∀ a, Mirrors n (plainNext a) (next a)) :
    Mirrors n (plain >>= plainNext) (step >>= next) := by
  intro ps
  obtain ⟨hcount, hsame⟩ := h ps
  change _ ∧ (plain ps >>= fun r => plainNext r.1 r.2) = _
  rw [runOn_bind, hsame]
  generalize step.runOn ⟨ps, n⟩ = run at hcount
  obtain ⟨outcome, qs, _⟩ := run
  obtain rfl := hcount
  cases outcome with
  | ok a => exact hnext a qs
  | error e => exact ⟨rfl, rfl⟩

-- What is read under a negation is read with one more of them open.
theorem of_negated (h : Mirrors (n + 1) plain step) : Mirrors n plain (negated step) := by
  intro ps
  obtain ⟨hcount, hsame⟩ := h ps
  rw [runOn_negated]
  exact ⟨by simp [hcount], hsame⟩

theorem openNegations_bind {next : Nat → Counting α} (h : Mirrors n plain (next n)) :
    Mirrors n plain (openNegations >>= next) := h

end Mirrors

end Counting

namespace Predicate

variable (catalog : Catalog)

mutual

-- How a filter is read by such a reader, which looks at the count where the running one is told
-- whether there is a negation.
def countingMembers (type : NodeType) (hops : List String) (path : ParameterPath) :
    List (String × Json) → Counting (List Predicate)
  | [] => return []
  | (key, v) :: rest => do
    let p ← countingMember type hops path key v
    return p :: (← countingMembers type hops path rest)

def countingMember (type : NodeType) (hops : List String) (path : ParameterPath) (key : String)
    (v : Json) : Counting Predicate := do
  match ← FilterKey.read type key with
  | .combinator .and =>
    match v with
    | .arr items => return .all (← countingItems type hops path key 0 items)
    | _ => throw (.invalidFilterField key)
  | .combinator .or =>
    match v with
    | .arr items => return .any (← countingItems type hops path key 0 items)
    | _ => throw (.invalidFilterField key)
  | .combinator .not =>
    let members ← Counting.negated <|
      match v with
      | .obj members => countingMembers type hops (path.child key) members
      | _ => throw (.invalidFilterField key)
    return .not (.all members)
  | .comparison field op => Counting.hoist (comparison field op key v hops (path.child key))
  | .relationship field relation quantifier =>
    let target ← catalog.require relation.target
    match effectiveQuantifier? quantifier v with
    | none => throw (.invalidFilterField key)
    | some quantifier =>
      let negations ← Counting.openNegations
      let inner := hops ++ [hopSegment field.name quantifier (negations != 0)]
      let hop : FilterHop := ⟨inner, field.name, relation, quantifier⟩
      match v with
      | .null => return .related hop (.all [])
      | .obj members =>
        return .related hop (.all (← countingMembers target inner (path.child key) members))
      | _ => throw (.invalidFilterField key)

def countingItems (type : NodeType) (hops : List String) (path : ParameterPath) (key : String)
    (index : Nat) : List Json → Counting (List Predicate)
  | [] => return []
  | .obj members :: rest => do
    let p ← countingMembers type hops (path.indexed key index) members
    return .all p :: (← countingItems type hops path key (index + 1) rest)
  | _ :: _ => throw (.invalidFilterField key)

end

def countingFilter (type : NodeType) (path : ParameterPath) : Json → Counting (List Predicate)
  | .obj members => countingMembers catalog type [] path members
  | _ => throw (.invalidFilterField Argument.filter)

variable {catalog : Catalog}

open Counting (Mirrors)

mutual

theorem countingMembers_mirrors {type : NodeType} {hops : List String} {path : ParameterPath}
    {n : Nat} (members : List (String × Json)) :
    Mirrors n (ofMembers catalog type hops (n != 0) path members)
      (countingMembers catalog type hops path members) := by
  match members with
  | [] =>
      rw [ofMembers, countingMembers]
      exact .of_pure []
  | (key, v) :: rest =>
      rw [ofMembers, countingMembers]
      exact (countingMember_mirrors v).bind fun _ =>
        (countingMembers_mirrors rest).bind fun _ => .of_pure _
termination_by sizeOf members

theorem countingMember_mirrors {type : NodeType} {hops : List String} {path : ParameterPath}
    {key : String} {n : Nat} (v : Json) :
    Mirrors n (ofMember catalog type hops (n != 0) path key v)
      (countingMember catalog type hops path key v) := by
  rw [ofMember.eq_def, countingMember.eq_def]
  refine (Mirrors.of_lift _).bind fun k => ?_
  cases k with
  | combinator c =>
      cases c with
      | and =>
          cases v with
          | arr items => exact (countingItems_mirrors items).bind fun _ => .of_pure _
          | _ => exact .of_refuse key
      | or =>
          cases v with
          | arr items => exact (countingItems_mirrors items).bind fun _ => .of_pure _
          | _ => exact .of_refuse key
      | not =>
          cases v with
          | obj members =>
              have hmembers : Mirrors (n + 1)
                  (ofMembers catalog type hops true (path.child key) members)
                  (countingMembers catalog type hops (path.child key) members) :=
                countingMembers_mirrors members
              exact hmembers.of_negated.bind fun _ => .of_pure _
          | _ =>
              have hrefuse : Mirrors (n + 1) (Hoist.refuse key : Hoist (List Predicate))
                  (throw (.invalidFilterField key)) := .of_refuse key
              exact hrefuse.of_negated.bind fun members =>
                Mirrors.of_pure (Predicate.not (.all members))
  | comparison field op => exact .of_hoist _
  | relationship field relation quantifier =>
      refine (Mirrors.of_lift _).bind fun target => ?_
      cases effectiveQuantifier? quantifier v with
      | none => exact .of_refuse key
      | some quantifier =>
          apply Mirrors.openNegations_bind
          cases v with
          | null => exact .of_pure _
          | obj members => exact (countingMembers_mirrors members).bind fun _ => .of_pure _
          | _ => exact .of_refuse key
termination_by sizeOf v

theorem countingItems_mirrors {type : NodeType} {hops : List String} {path : ParameterPath}
    {key : String} {n index : Nat} (items : List Json) :
    Mirrors n (ofItems catalog type hops (n != 0) path key index items)
      (countingItems catalog type hops path key index items) := by
  match items with
  | [] =>
      rw [ofItems, countingItems]
      exact .of_pure []
  | item :: rest =>
      cases item with
      | obj members =>
          rw [ofItems, countingItems]
          exact (countingMembers_mirrors members).bind fun _ =>
            (countingItems_mirrors rest).bind fun _ => .of_pure _
      | _ => exact .of_refuse key
termination_by sizeOf items

end

variable {type : NodeType} {path : ParameterPath} (filter : Json)

theorem countingFilter_mirrors :
    Mirrors 0 (ofFilter catalog type path filter) (countingFilter catalog type path filter) := by
  cases filter with
  | obj members => exact countingMembers_mirrors members
  | _ => exact .of_refuse _

theorem negations_countingFilter (ps : Parameters) (n : Nat) :
    ((countingFilter catalog type path filter).runOn ⟨ps, n⟩).2.negations = n := by
  cases filter with
  | obj members => exact (countingMembers_mirrors members ps).1
  | _ => rfl

end Predicate

end CypherCompiler
