import CypherCompiler.Proofs.Outcome.Step

namespace CypherCompiler

-- A step on one map of parameters that is changed in place, so that a failure leaves behind what
-- was put in before.
abbrev InPlace := ExceptT RequestError (StateM Parameters)

namespace InPlace

variable {α β : Type}

def value (path : ParameterPath) (v : Json) : InPlace String := do
  match (← get).insert path.name v with
  | .ok next =>
    set next
    return path.name
  | .error e => throw e

-- The outcome on a map, and the map afterwards.
def runOn (step : InPlace α) (ps : Parameters) : Except RequestError α × Parameters :=
  (step.run.run ps).run

-- The step as it is seen where nobody looks at the map of a failure.
def forget (step : InPlace α) : Hoist α := fun ps =>
  (step.runOn ps).1.map fun a => (a, (step.runOn ps).2)

theorem runOn_bind (step : InPlace α) (next : α → InPlace β) (ps : Parameters) :
    (step >>= next).runOn ps = match step.runOn ps with
      | (.ok a, qs) => (next a).runOn qs
      | (.error e, qs) => (.error e, qs) := by
  unfold runOn
  rw [ExceptT.run_bind, StateT.run_bind]
  cases StateT.run step.run ps with
  | mk outcome qs => cases outcome <;> rfl

theorem forget_bind (step : InPlace α) (next : α → InPlace β) :
    (step >>= next).forget = step.forget >>= fun a => (next a).forget := by
  funext ps
  have hrun := runOn_bind step next ps
  change Except.map _ _ = (step.forget ps >>= fun r => (next r.1).forget r.2)
  unfold forget
  rw [hrun]
  cases step.runOn ps with
  | mk outcome qs => cases outcome <;> rfl

theorem runOn_value (path : ParameterPath) (v : Json) (ps : Parameters) :
    (value path v).runOn ps = match ps.insert path.name v with
      | .ok next => (.ok path.name, next)
      | .error e => (.error e, ps) := by
  change (match ps.insert path.name v with
    | .ok next => (do set next; return path.name : InPlace String)
    | .error e => throw e).runOn ps = _
  cases ps.insert path.name v <;> rfl

theorem forget_value (path : ParameterPath) (v : Json) :
    (value path v).forget = Hoist.value path v := by
  funext ps
  unfold forget Hoist.value
  rw [runOn_value]
  cases ps.insert path.name v <;> rfl

-- A value that may be left out.
def valueIf (written : Bool) (path : ParameterPath) (v : Json) : InPlace (Option String) :=
  if written then some <$> value path v else pure none

theorem runOn_valueIf {written : Bool} {path : ParameterPath} {ps : Parameters} (v : Json)
    (h : written = true → path.name ∉ ps.names) :
    (valueIf written path v).runOn ps =
      (.ok (if written then some path.name else none),
        ⟨ps.members ++ if written then [(path.name, v)] else []⟩) := by
  cases written with
  | false =>
      simp only [Bool.false_eq_true, if_false, List.append_nil]
      rfl
  | true =>
      have hinsert : ps.insert path.name v = .ok ⟨ps.members ++ [(path.name, v)]⟩ :=
        Parameters.insert_eq_ok.mpr ⟨h rfl, rfl⟩
      rw [valueIf, if_pos rfl, map_eq_pure_bind, runOn_bind, runOn_value, hinsert]
      rfl

-- A value is refused for its name only.
theorem error_of_runOn_valueIf {written : Bool} {path : ParameterPath} {v : Json}
    {ps qs : Parameters} {e : RequestError}
    (h : (valueIf written path v).runOn ps = (.error e, qs)) :
    e = .parameterCollision path.name := by
  cases written with
  | false => cases h
  | true =>
      rw [valueIf, if_pos rfl, map_eq_pure_bind, runOn_bind, runOn_value] at h
      by_cases hc : ps.contains path.name = true
      · rw [Parameters.insert, if_pos hc] at h
        cases h
        rfl
      · rw [Parameters.insert, if_neg hc] at h
        cases h

theorem forget_valueIf (written : Bool) (path : ParameterPath) (v : Json) :
    (valueIf written path v).forget =
      if written then some <$> Hoist.value path v else pure none := by
  cases written with
  | false => rfl
  | true =>
      rw [valueIf, if_pos rfl, if_pos rfl, map_eq_pure_bind, map_eq_pure_bind, forget_bind,
        forget_value]
      rfl

end InPlace

theorem Drafting.hoist_bind {α β : Type} (step : Hoist α) (next : α → Hoist β) :
    hoist (step >>= next) = hoist step >>= fun a => hoist (next a) := by
  funext d
  change Except.map _ (step d.parameters >>= fun r => next r.1 r.2) =
    ((step d.parameters).map _ >>= fun r : α × Draft => hoist (next r.1) r.2)
  cases step d.parameters <;> rfl

end CypherCompiler
