import CypherCompiler.Proofs.Outcome.Resolution
import CypherCompiler.Proofs.Traversal.Grouped
import CypherCompiler.Proofs.Traversal.Reached

namespace CypherCompiler

namespace Plan

variable {plan : Plan}

mutual

-- A predicate can be stated on the nodes of a plan in which each of its hops is reached.
theorem exists_resolved (p : Predicate) {path : List String} (hscope : p.ScopedAt path)
    (hreached : ∀ hop ∈ p.hops, ∃ node, LeadsTo plan.root plan.steps hop.path node)
    (hpath : ∃ node, LeadsTo plan.root plan.steps path node) :
    ∃ c, plan.condition p = .ok c := by
  match p, hscope with
  | .compare comparison, hscope =>
      cases hscope
      obtain ⟨node, hnode⟩ := hpath
      obtain ⟨found, hfound⟩ := hnode.exists_node?
      exact ⟨_, condition_compare_eq_ok.mpr ⟨found, hfound, rfl⟩⟩
  | .all children, hscope =>
      obtain ⟨cs, hcs⟩ := exists_allResolved children hscope hreached hpath
      exact ⟨.all cs, condition_all_eq_ok.mpr ⟨cs, hcs, rfl⟩⟩
  | .any children, hscope =>
      obtain ⟨cs, hcs⟩ := exists_allResolved children hscope hreached hpath
      exact ⟨.any cs, condition_any_eq_ok.mpr ⟨cs, hcs, rfl⟩⟩
  | .not child, hscope =>
      obtain ⟨c, hc⟩ := exists_resolved child hscope hreached hpath
      exact ⟨.not c, condition_not_eq_ok.mpr ⟨c, hc, rfl⟩⟩
  | .related hop child, hscope =>
      obtain ⟨⟨segment, hsegment⟩, hchild⟩ := hscope
      obtain ⟨hfirst, hbelow⟩ := List.forall_mem_cons.mp hreached
      obtain ⟨c, hc⟩ := exists_resolved child hchild hbelow hfirst
      obtain ⟨node, hnode⟩ := hfirst
      obtain ⟨s, hs⟩ := hnode.exists_findStep? (by simp [hsegment])
      exact ⟨_, condition_related_eq_ok.mpr ⟨s, c, hs, hc, rfl⟩⟩
termination_by sizeOf p

theorem exists_allResolved (children : List Predicate) {path : List String}
    (hscope : Predicate.AllScopedAt path children)
    (hreached : ∀ hop ∈ Predicate.hopsOfAll children,
      ∃ node, LeadsTo plan.root plan.steps hop.path node)
    (hpath : ∃ node, LeadsTo plan.root plan.steps path node) :
    ∃ cs, plan.conditions children = .ok cs := by
  match children, hscope with
  | [], _ => exact ⟨[], conditions_nil_eq_ok.mpr rfl⟩
  | child :: rest, hscope =>
      obtain ⟨hchild, hrest⟩ := hscope
      obtain ⟨hfirst, hothers⟩ := List.forall_mem_append.mp hreached
      obtain ⟨c, hc⟩ := exists_resolved child hchild hfirst hpath
      obtain ⟨cs, hcs⟩ := exists_allResolved rest hrest hothers hpath
      exact ⟨c :: cs, conditions_cons_eq_ok.mpr ⟨c, cs, hc, hcs, rfl⟩⟩
termination_by sizeOf children

end

-- Every plan has a source: its group-by steps follow each other, and its filter follows no hop
-- that was not planned.
theorem exists_source {catalog : Catalog} {root : Root} {selections : List Selection}
    {groupBy : Option String} {predicate : Predicate} {aliases aliases' : AliasRegistry}
    (hgroup : groupBy = none ∨ selections = []) (hscope : predicate.ScopedAt [])
    (h : make catalog root selections groupBy predicate aliases = .ok (plan, aliases'))
    (type : NodeType) (search : Option Cypher.SearchCall) :
    ∃ source, plan.source type predicate search = .ok source := by
  have hpattern : ∃ pattern, plan.pattern type = .ok pattern := by
    obtain ⟨last, htrail⟩ := make_trail hgroup h
    obtain ⟨hops, hhops⟩ := htrail.exists_chainFrom
    unfold pattern
    rw [make_root h, hhops]
    exact ⟨_, rfl⟩
  have hconditions : ∃ conditions, plan.sourceConditions predicate = .ok conditions := by
    obtain ⟨c, hc⟩ := exists_resolved predicate hscope (make_reached hscope h)
      ⟨plan.root.node, .inl ⟨rfl, rfl⟩⟩
    unfold sourceConditions
    split
    · exact ⟨_, rfl⟩
    · rw [hc]
      exact ⟨_, rfl⟩
  obtain ⟨pattern, hpattern⟩ := hpattern
  obtain ⟨conditions, hconditions⟩ := hconditions
  exact ⟨⟨search, pattern, conditions⟩, by rw [source, hpattern, hconditions]; rfl⟩

end Plan

end CypherCompiler
