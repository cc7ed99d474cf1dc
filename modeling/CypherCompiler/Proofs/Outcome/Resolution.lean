import CypherCompiler.Traversal.Resolution
import CypherCompiler.Proofs.Outcome.Step

namespace CypherCompiler

open Cypher

namespace Plan

variable {p : Plan} {c : Condition}

theorem comparedNode_eq_ok {path : List String} {node : String} :
    p.comparedNode path = .ok node ↔ p.node? path .predicate = some node := by
  unfold comparedNode
  cases p.node? path .predicate <;> simp

theorem filterHop_eq_ok {hop : FilterHop} {h : Hop} :
    p.filterHop hop = .ok h ↔
      ∃ s, p.step? hop.path .predicate = some s ∧
        h = ⟨s.incoming.parent, hop.relation, s.node⟩ := by
  unfold filterHop
  cases p.step? hop.path .predicate <;> simp [eq_comm]

theorem condition_compare_eq_ok {comparison : Comparison} :
    p.condition (.compare comparison) = .ok c ↔
      ∃ node, p.node? comparison.path .predicate = some node ∧
        c = .compare node comparison.target comparison.op comparison.operand := by
  rw [condition]
  simp only [except_bind_eq_ok, comparedNode_eq_ok, except_pure_eq_ok]

theorem condition_all_eq_ok {children : List Predicate} :
    p.condition (.all children) = .ok c ↔
      ∃ cs, p.conditions children = .ok cs ∧ c = .all cs := by
  rw [condition]
  simp only [except_bind_eq_ok, except_pure_eq_ok]

theorem condition_any_eq_ok {children : List Predicate} :
    p.condition (.any children) = .ok c ↔
      ∃ cs, p.conditions children = .ok cs ∧ c = .any cs := by
  rw [condition]
  simp only [except_bind_eq_ok, except_pure_eq_ok]

theorem condition_not_eq_ok {child : Predicate} :
    p.condition (.not child) = .ok c ↔ ∃ inner, p.condition child = .ok inner ∧ c = .not inner := by
  rw [condition]
  simp only [except_bind_eq_ok, except_pure_eq_ok]

theorem condition_related_eq_ok {hop : FilterHop} {child : Predicate} :
    p.condition (.related hop child) = .ok c ↔
      ∃ s inner, p.step? hop.path .predicate = some s ∧ p.condition child = .ok inner ∧
        c = .related ⟨s.incoming.parent, hop.relation, s.node⟩ hop.quantifier inner := by
  rw [condition]
  simp only [except_bind_eq_ok, filterHop_eq_ok, except_pure_eq_ok]
  constructor
  · rintro ⟨_, ⟨s, hs, rfl⟩, inner, hinner, rfl⟩
    exact ⟨s, inner, hs, hinner, rfl⟩
  · rintro ⟨s, inner, hs, hinner, rfl⟩
    exact ⟨_, ⟨s, hs, rfl⟩, inner, hinner, rfl⟩

theorem conditions_nil_eq_ok {cs : List Condition} :
    p.conditions [] = .ok cs ↔ cs = [] := by
  rw [conditions]
  simp only [except_pure_eq_ok]

theorem conditions_cons_eq_ok {child : Predicate} {rest : List Predicate} {cs : List Condition} :
    p.conditions (child :: rest) = .ok cs ↔
      ∃ c more, p.condition child = .ok c ∧ p.conditions rest = .ok more ∧ cs = c :: more := by
  rw [conditions]
  simp only [except_bind_eq_ok, except_pure_eq_ok]
  constructor
  · rintro ⟨c, hc, more, hmore, rfl⟩
    exact ⟨c, more, hc, hmore, rfl⟩
  · rintro ⟨c, more, hc, hmore, rfl⟩
    exact ⟨c, hc, more, hmore, rfl⟩

end Plan

end CypherCompiler
