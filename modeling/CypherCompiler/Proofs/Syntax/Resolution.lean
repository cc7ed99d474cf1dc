import CypherCompiler.Proofs.Graph.Resolution
import CypherCompiler.Proofs.Hoisting.Filter
import CypherCompiler.Proofs.Syntax.Value
import CypherCompiler.Proofs.Traversal.Resolved

namespace CypherCompiler

open Syntax

namespace Plan

-- Where its parameters are words, the text of a condition is parsed to the formula that it is
-- written as.
theorem parse?_condition {plan : Plan} {p : Predicate} {c : Cypher.Condition}
    (hc : plan.condition p = .ok c) (hwords : Text.AreWords p.references) :
    parse? c.render = some c.formula := by
  rw [← plan.references_condition p c hc] at hwords
  exact (c.binds_render hwords).denotes.parse?_eq

-- The text that is made of a filter reads back as the filter's predicate, whatever the truth of
-- its comparisons and whatever a match of a hop means. Parameters stand without quotes, so the
-- path below which they are named consists of words, as that of a root's filter always does.
theorem condition_reads_back {catalog : Catalog} (hcatalog : catalog.HasPlainFields)
    {type : NodeType} (htype : type ∈ catalog.types) {path : ParameterPath}
    (hpath : path.IsPlain) {filter : Json} {ps qs : Parameters} {children : List Predicate}
    (hfilter : Predicate.ofFilter catalog type path filter ps = .ok (children, qs))
    {root : Root} {selections : List Selection} {groupBy : Option String}
    {aliases aliases' : AliasRegistry} {plan : Plan}
    (hplan : make catalog root selections groupBy (.all children) aliases = .ok (plan, aliases')) :
    ∃ condition formula, plan.condition (.all children) = .ok condition ∧
      parse? condition.render = some formula ∧
      ∀ (W : Type) (v : Valuation W) (w : W),
        formula.value v w = (Predicate.all children).value plan v w := by
  obtain ⟨members, rfl, hmembers⟩ := Predicate.ofFilter_cases hfilter
  have hscope : (Predicate.all children).ScopedAt [] :=
    (Predicate.ofMembers_inScope .root members hmembers).1
  obtain ⟨condition, hcondition⟩ := exists_resolved (.all children) hscope
    (make_reached hscope hplan) ⟨plan.root.node, .inl ⟨rfl, rfl⟩⟩
  have hwords : Text.AreWords (Predicate.all children).references :=
    (Predicate.ofMembers_hoisted hcatalog (hcatalog type htype) hpath members hmembers).words
  exact ⟨condition, condition.formula, hcondition, parse?_condition hcondition hwords,
    fun _ v w => value_condition v _ hcondition w⟩

theorem condition_reads_back_castFilter :
    ∃ children qs plan aliases condition formula,
      Predicate.ofFilter movies movieType ⟨["filter"]⟩ castFilter .empty = .ok (children, qs) ∧
      make movies ⟨"movie", "Movie", none⟩ [] none (.all children) .empty = .ok (plan, aliases) ∧
      plan.condition (.all children) = .ok condition ∧
      parse? condition.render = some formula ∧
      ∀ (W : Type) (v : Valuation W) (w : W),
        formula.value v w = (Predicate.all children).value plan v w := by
  have hread : ∃ children qs,
      Predicate.ofFilter movies movieType ⟨["filter"]⟩ castFilter .empty = .ok (children, qs) :=
    ⟨_, _, rfl⟩
  obtain ⟨children, qs, hfilter⟩ := hread
  have hroot : movies.type? (⟨"movie", "Movie", none⟩ : Root).typeName = some movieType := rfl
  obtain ⟨plan, aliases, hplan⟩ := exists_make hroot [] (.all children) .empty
  have htype : movieType ∈ movies.types := List.mem_cons_self
  have hword : Text.IsWord "filter" := Text.isWord_of_all (by decide)
  have hpath : (⟨["filter"]⟩ : ParameterPath).IsPlain := by
    simpa [ParameterPath.IsPlain] using hword
  obtain ⟨condition, formula, hcondition, hparse, hvalue⟩ :=
    condition_reads_back movies_hasPlainNames.fields htype hpath hfilter hplan
  exact ⟨children, qs, plan, aliases, condition, formula, hfilter, hplan, hcondition, hparse,
    hvalue⟩

end Plan

end CypherCompiler
