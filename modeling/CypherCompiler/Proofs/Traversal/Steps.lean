import CypherCompiler.Proofs.Filter.Scope
import CypherCompiler.Proofs.Name.Fresh
import CypherCompiler.Proofs.Outcome.Planning

namespace CypherCompiler

theorem findStep?_eq_some {steps : List Step} {path : List String} {source : HopSource} {s : Step}
    (h : findStep? steps path source = some s) :
    s ∈ steps ∧ s.path = path ∧ s.origin.has source = true := by
  have htest := List.find?_some h
  simp only [Bool.and_eq_true, beq_iff_eq] at htest
  exact ⟨List.mem_of_find?_eq_some h, htest⟩

-- A path is found to end at the root, or at a step that its source has asked for.
theorem findNode?_cases {root : Root} {steps : List Step} {path : List String}
    {source : HopSource} {node : String} (h : findNode? root steps path source = some node) :
    (path = [] ∧ node = root.node) ∨
      ∃ s ∈ steps, s.path = path ∧ s.origin.has source = true ∧ s.node = node := by
  unfold findNode? at h
  by_cases hpath : path = []
  · simp only [hpath, List.isEmpty_nil, ite_true, Option.some.injEq] at h
    exact .inl ⟨hpath, h.symm⟩
  · simp only [List.isEmpty_iff, hpath, ite_false, Option.map_eq_some_iff] at h
    obtain ⟨s, hs, hnode⟩ := h
    obtain ⟨hmem, hspath, horigin⟩ := findStep?_eq_some hs
    exact .inr ⟨s, hmem, hspath, horigin, hnode⟩

theorem exists_findStep? {steps : List Step} {path : List String} {source : HopSource}
    (h : ∃ s ∈ steps, s.path = path ∧ s.origin.has source = true) :
    ∃ s, findStep? steps path source = some s := by
  obtain ⟨s, hs, hpath, horigin⟩ := h
  rw [← Option.isSome_iff_exists, findStep?, List.find?_isSome]
  exact ⟨s, hs, by simp [hpath, horigin]⟩

theorem exists_findNode? {root : Root} {steps : List Step} {path : List String}
    {source : HopSource}
    (h : path = [] ∨ ∃ s ∈ steps, s.path = path ∧ s.origin.has source = true) :
    ∃ node, findNode? root steps path source = some node := by
  unfold findNode?
  by_cases hpath : path = []
  · exact ⟨root.node, by simp [hpath]⟩
  · obtain ⟨s, hs⟩ := exists_findStep? (h.resolve_left hpath)
    exact ⟨s.node, by simp [hpath, hs]⟩

-- Every step got a name of its own between two states of the registry.
structure NewlyNamed (before after : AliasRegistry) (steps : List Step) : Prop where
  grows : before.taken ⊆ after.taken
  taken : ∀ s ∈ steps, s.node ∈ after.taken
  fresh : ∀ s ∈ steps, s.node ∉ before.taken
  nodup : (steps.map Step.node).Nodup

namespace NewlyNamed

variable {before after : AliasRegistry} {steps : List Step}

theorem eq_of_node_eq (h : NewlyNamed before after steps) {s t : Step} (hs : s ∈ steps)
    (ht : t ∈ steps) (hnode : s.node = t.node) : s = t :=
  List.inj_on_of_nodup_map h.nodup hs ht hnode

-- Changing what a step is asked for leaves its name.
theorem update {first rest : List Step} {s t : Step}
    (h : NewlyNamed before after (first ++ s :: rest)) (hnode : t.node = s.node) :
    NewlyNamed before after (first ++ t :: rest) := by
  have hmap : (first ++ t :: rest).map Step.node = (first ++ s :: rest).map Step.node := by
    simp [hnode]
  have hold : ∀ u ∈ first ++ t :: rest, ∃ v ∈ first ++ s :: rest, v.node = u.node := by
    intro u hu
    have hname : u.node ∈ (first ++ s :: rest).map Step.node := by
      rw [← hmap]
      exact List.mem_map_of_mem hu
    exact List.mem_map.mp hname
  refine ⟨h.grows, ?_, ?_, by rw [hmap]; exact h.nodup⟩
  · intro u hu
    obtain ⟨v, hv, hname⟩ := hold u hu
    exact hname ▸ h.taken v hv
  · intro u hu
    obtain ⟨v, hv, hname⟩ := hold u hu
    exact hname ▸ h.fresh v hv

theorem append (h : NewlyNamed before after steps) {t : Step} {base : String}
    (hnode : t.node = after.fresh base) :
    NewlyNamed before (after.reserve t.node) (steps ++ [t]) := by
  have hfree : t.node ∉ after.taken := by
    rw [hnode]
    exact AliasRegistry.fresh_not_mem after base
  refine ⟨fun name hname => AliasRegistry.mem_reserve.mpr (.inr (h.grows hname)), ?_, ?_, ?_⟩
  · intro s hs
    rw [AliasRegistry.mem_reserve]
    rcases List.mem_append.mp hs with hs | hs
    · exact .inr (h.taken s hs)
    · exact .inl (by rw [List.mem_singleton.mp hs])
  · intro s hs
    rcases List.mem_append.mp hs with hs | hs
    · exact h.fresh s hs
    · rw [List.mem_singleton.mp hs]
      exact fun hname => hfree (h.grows hname)
  · rw [List.map_append, List.map_singleton, ← List.concat_eq_append]
    refine h.nodup.concat ?_
    intro hname
    obtain ⟨s, hs, heq⟩ := List.mem_map.mp hname
    exact hfree (heq ▸ h.taken s hs)

end NewlyNamed

namespace Planning

theorem add_newlyNamed {before : AliasRegistry} {p : Planning}
    (h : NewlyNamed before p.aliases p.steps) (r : HopRequest) :
    NewlyNamed before (p.add r).aliases (p.add r).steps := by
  have hadd := add_cases p r
  generalize p.add r = q at hadd
  cases hadd with
  | shared hsteps hmatch hbefore =>
      rw [hsteps] at h
      exact h.update rfl
  | @opened parent hnew hparent =>
      exact h.append (t := r.opened (p.aliases.fresh (Alias.child parent r.key)) parent) rfl
  | dropped => exact h

-- The steps of a filter follow the relationships that their paths stand for.
def FollowsPaths (catalog : Catalog) (type : NodeType) (steps : List Step) : Prop :=
  ∀ s ∈ steps, s.origin.has .predicate = true → catalog.Follows type s.path s.incoming.relation

theorem add_followsPaths {catalog : Catalog} {type : NodeType} {p : Planning}
    (h : FollowsPaths catalog type p.steps) {r : HopRequest}
    (hr : r.source = .predicate → catalog.Follows type r.path r.relation) :
    FollowsPaths catalog type (p.add r).steps := by
  intro t ht horigin
  obtain ht | ⟨s, hs, hmatch, rfl⟩ | ⟨parent, -, rfl⟩ := mem_add_steps ht
  · exact h t ht horigin
  · rw [HopRequest.matchesStep_iff] at hmatch
    obtain ⟨hpath, hrelation⟩ := hmatch
    simp only [HopRequest.mergeInto, HopOrigin.has_add, Bool.or_eq_true, decide_eq_true_eq]
      at horigin
    cases horigin with
    | inl hold => exact h s hs hold
    | inr hsource =>
        have hfollows := hr hsource
        rw [← hpath, ← hrelation] at hfollows
        exact hfollows
  · simp only [HopRequest.opened, HopOrigin.has_ofSource, decide_eq_true_eq] at horigin
    exact hr horigin

end Planning

namespace Plan

variable {catalog : Catalog} {root : Root} {selections : List Selection}
  {groupBy : Option String} {predicate : Predicate} {aliases aliases' : AliasRegistry} {plan : Plan}

theorem make_newlyNamed
    (h : make catalog root selections groupBy predicate aliases = .ok (plan, aliases')) :
    NewlyNamed (aliases.reserve root.node) aliases' plan.steps := by
  obtain ⟨type, groups, -, -, -, q, rfl, -, hsteps, rfl⟩ := make_cases h
  rw [hsteps]
  refine Planning.foldl_add_induct (motive := fun q =>
    NewlyNamed (aliases.reserve root.node) q.aliases q.steps) ?_ ?_
  · exact ⟨fun _ h => h, by simp [Planning.start], by simp [Planning.start],
      by simp [Planning.start]⟩
  · exact fun q r _ hq => Planning.add_newlyNamed hq r

theorem make_followsPaths {type : NodeType}
    (hhops : ∀ hop ∈ predicate.hops, catalog.Follows type hop.path hop.relation)
    (h : make catalog root selections groupBy predicate aliases = .ok (plan, aliases')) :
    Planning.FollowsPaths catalog type plan.steps := by
  obtain ⟨type', groups, -, hgroups, -, q, rfl, -, hsteps, -⟩ := make_cases h
  rw [hsteps]
  refine Planning.foldl_add_induct (motive := fun q =>
    Planning.FollowsPaths catalog type q.steps) (by simp [Planning.FollowsPaths, Planning.start]) ?_
  intro q r hr hq
  refine Planning.add_followsPaths hq fun hsource => ?_
  simp only [List.mem_append, List.mem_filterMap] at hr
  obtain (⟨s, -, hs⟩ | hgroup) | ⟨hop, hhop, hr⟩ := hr
  · obtain ⟨_, _, -, -, rfl⟩ := Planning.selectedHop?_cases hs
    cases hsource
  · rw [hgroups r hgroup] at hsource
    cases hsource
  · obtain ⟨path, segment, hpath, rfl⟩ := Planning.filterHop?_eq_some.mp hr
    have hfollows := hhops hop hhop
    rw [hpath] at hfollows
    exact hfollows

end Plan

end CypherCompiler
