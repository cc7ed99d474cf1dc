import CypherCompiler.Proofs.Outcome.Failure

namespace CypherCompiler

-- An error that blames the schema for such a reason only, if it blames the schema at all, and
-- never the caller for what was not granted.
def RequestError.Gives (P : String → Prop) : RequestError → Prop
  | .schemaInconsistency reason => P reason
  | .forbidden _ => False
  | _ => True

namespace RequestError

variable {P Q : String → Prop} {e : RequestError}

theorem FaultsRequest.gives (h : e.FaultsRequest) : e.Gives P := by
  cases e with
  | schemaInconsistency | forbidden => exact h.elim
  | _ => trivial

theorem Gives.mono (h : e.Gives P) (hsub : ∀ reason, P reason → Q reason) : e.Gives Q := by
  cases e with
  | schemaInconsistency reason => exact hsub reason h
  | forbidden => exact h
  | _ => trivial

end RequestError

section

variable {σ α : Type} {P Q : String → Prop}

theorem FailsOnly.gives {check : Except RequestError α}
    (h : FailsOnly RequestError.FaultsRequest check) : FailsOnly (RequestError.Gives P) check :=
  h.mono fun _ he => he.gives

-- A step that blames the schema for such a reason only. One that never blames the schema does so
-- for any.
abbrev Blames (P : String → Prop) (step : StateT σ (Except RequestError) α) : Prop :=
  StepFailsOnly (RequestError.Gives P) step

theorem Blames.mono {step : StateT σ (Except RequestError) α} (h : Blames P step)
    (hsub : ∀ reason, P reason → Q reason) : Blames Q step :=
  fun s => (h s).mono fun _ he => he.mono hsub

namespace Hoist

theorem value_blames (path : ParameterPath) (v : Json) : Blames P (value path v) := by
  intro ps
  have hinsert : FailsOnly (RequestError.Gives P) (ps.insert path.name v) := by
    unfold Parameters.insert
    split
    · exact .error trivial
    · exact .ok _
  exact hinsert.map _

theorem refuse_blames (key : String) : Blames P (refuse key : Hoist α) :=
  .of_throw trivial

-- A step that is left out does not fail.
theorem orSkip_blames {strict : Bool} {step : Hoist α} (h : Blames P step) :
    Blames P (orSkip strict step) := by
  intro ps
  have hstep := h ps
  unfold orSkip
  cases hrun : step ps with
  | ok r => exact .ok _
  | error e =>
      rw [hrun] at hstep
      have he := hstep e rfl
      cases e with
      | invalidFilterField key =>
          simp only
          split
          · exact .error trivial
          · exact .ok _
      | _ => exact .error he

end Hoist

namespace Drafting

theorem hoist_blames {step : Hoist α} (h : Blames P step) : Blames P (hoist step) :=
  fun d => (h d.parameters).map _

theorem value_blames (path : ParameterPath) (v : Json) : Blames P (value path v) :=
  hoist_blames (Hoist.value_blames path v)

theorem share_blames (name : String) (v : Json) : Blames P (share name v) :=
  fun _ => .ok _

theorem plan_blames {make : AliasRegistry → Except RequestError (Plan × AliasRegistry)}
    (h : ∀ aliases, FailsOnly (RequestError.Gives P) (make aliases)) : Blames P (plan make) :=
  fun d => (h d.aliases).map _

theorem claim_blames (base : String) : Blames P (claim base) :=
  fun _ => .ok _

theorem reserve_blames (name : String) : Blames P (reserve name) :=
  fun _ => .ok _

end Drafting

end

end CypherCompiler
