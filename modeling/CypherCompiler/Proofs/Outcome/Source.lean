import CypherCompiler.Compilation.Source
import CypherCompiler.Proofs.Outcome.Resolution

namespace CypherCompiler

open Cypher

-- The hop that a step stands for.
def Step.hop (s : Step) : Hop := ⟨s.incoming.parent, s.incoming.relation, s.node⟩

namespace Plan

variable {p : Plan}

theorem chainFrom_eq_ok {previous : String} {steps : List Step} {hops : List Hop}
    (h : chainFrom previous steps = .ok hops) : hops = steps.map Step.hop := by
  induction steps generalizing previous hops with
  | nil =>
      cases h
      rfl
  | cons s rest ih =>
      rw [chainFrom] at h
      by_cases hparent : s.incoming.parent ≠ previous
      · simp only [hparent, ne_eq, not_false_eq_true, ite_true, except_bind_eq_ok,
          except_throw_eq_ok, false_and, exists_false] at h
      · simp only [hparent, ite_false, except_bind_eq_ok, except_pure_eq_ok] at h
        obtain ⟨more, hmore, rfl⟩ := h
        rw [ih hmore, List.map_cons]
        rfl

-- The steps whose presence is stated by a condition of their own.
def requiredSteps (p : Plan) : List Step := p.steps.filter isRequiredOnlyBySelection

theorem sourceConditions_eq_ok {predicate : Predicate} {conditions : List Condition}
    (h : p.sourceConditions predicate = .ok conditions) :
    ∃ stated, conditions = stated ++ p.requiredSteps.map (Condition.leadsSomewhere ∘ Step.hop) ∧
      ((predicate = .all [] ∧ stated = []) ∨
        ∃ c, p.condition predicate = .ok c ∧ stated = [c]) := by
  unfold sourceConditions at h
  by_cases hv : predicate.isVacuous = true
  · simp only [hv, ite_true, pure_bind, except_pure_eq_ok] at h
    refine ⟨[], h, .inl ⟨?_, rfl⟩⟩
    unfold Predicate.isVacuous at hv
    split at hv
    · rfl
    · cases hv
  · simp only [hv, Bool.false_eq_true, ite_false, except_bind_eq_ok, except_pure_eq_ok] at h
    obtain ⟨c, hc, _, rfl, rfl⟩ := h
    exact ⟨[c], rfl, .inr ⟨c, hc, rfl⟩⟩

theorem source_eq_ok {type : NodeType} {predicate : Predicate} {search : Option SearchCall}
    {source : Source} (h : p.source type predicate search = .ok source) :
    source.search = search ∧ p.pattern type = .ok source.pattern ∧
      p.sourceConditions predicate = .ok source.conditions := by
  unfold Plan.source at h
  simp only [except_bind_eq_ok, except_pure_eq_ok] at h
  obtain ⟨pattern, hpattern, conditions, hconditions, rfl⟩ := h
  exact ⟨rfl, hpattern, hconditions⟩

end Plan

end CypherCompiler
