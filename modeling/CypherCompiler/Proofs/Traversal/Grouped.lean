import CypherCompiler.Proofs.Outcome.Failure
import CypherCompiler.Proofs.Schema.Lookup
import CypherCompiler.Proofs.Traversal.Selected

namespace CypherCompiler

-- Steps that lead from one node to another, each of which starts where the one before it ends.
def Trail : String → String → List Step → Prop
  | first, last, [] => first = last
  | first, last, s :: rest => s.incoming.parent = first ∧ Trail s.node last rest

namespace Trail

variable {first last : String} {steps : List Step}

theorem concat (h : Trail first last steps) {t : Step} (ht : t.incoming.parent = last) :
    Trail first t.node (steps ++ [t]) := by
  induction steps generalizing first with
  | nil =>
      obtain rfl : first = last := h
      exact ⟨ht, rfl⟩
  | cons s rest ih => exact ⟨h.1, ih h.2⟩

-- Only where a step starts and where it ends counts.
theorem update {before after : List Step} {s t : Step}
    (h : Trail first last (before ++ s :: after)) (hnode : t.node = s.node)
    (hincoming : t.incoming = s.incoming) : Trail first last (before ++ t :: after) := by
  induction before generalizing first with
  | nil =>
      obtain ⟨hstart, hrest⟩ := h
      exact ⟨by rw [hincoming, hstart], by rw [hnode]; exact hrest⟩
  | cons u rest ih => exact ⟨h.1, ih h.2⟩

-- A trail can be written as one pattern.
theorem exists_chainFrom (h : Trail first last steps) :
    ∃ hops, Plan.chainFrom first steps = .ok hops := by
  induction steps generalizing first with
  | nil => exact ⟨[], rfl⟩
  | cons s rest ih =>
      obtain ⟨hstart, hrest⟩ := h
      obtain ⟨hops, hhops⟩ := ih hrest
      rw [Plan.chainFrom, if_neg (not_not.mpr hstart), hhops]
      exact ⟨_, rfl⟩

end Trail

namespace Planning

variable {p : Planning} {path : List String} {node : String}

-- Hops of other parts share the steps of a group-by path or stand beside them.
theorem grouped_add_cases (p : Planning) {r : HopRequest} (hr : r.source ≠ .groupBy) :
    (p.add r).steps.filter (·.origin.groupBy) = p.steps.filter (·.origin.groupBy) ∨
      ∃ before s after, p.steps.filter (·.origin.groupBy) = before ++ s :: after ∧
        (p.add r).steps.filter (·.origin.groupBy) = before ++ r.mergeInto s :: after ∧
        r.matchesStep s = true := by
  have hadd := add_cases p r
  generalize p.add r = q at hadd
  cases hadd with
  | @shared before after s hsteps hmatch hbefore =>
      have hkept : (r.mergeInto s).origin.groupBy = s.origin.groupBy := by
        have horigin := s.origin.has_add r.source .groupBy
        simpa [hr, HopOrigin.has, HopRequest.mergeInto] using horigin
      rw [hsteps]
      simp only [List.filter_append, List.filter_cons, hkept]
      split
      · exact .inr ⟨_, s, _, rfl, rfl, hmatch⟩
      · exact .inl rfl
  | @opened parent hnew hparent =>
      have hother : (HopOrigin.ofSource r.source).groupBy = false := by
        simpa [hr, HopOrigin.has] using HopOrigin.has_ofSource r.source .groupBy
      refine .inl ?_
      simp [List.filter_append, HopRequest.opened, hother]
  | dropped => exact .inl rfl

theorem trail_add {first last : String} {r : HopRequest} (hr : r.source ≠ .groupBy)
    (h : Trail first last (p.steps.filter (·.origin.groupBy))) :
    Trail first last ((p.add r).steps.filter (·.origin.groupBy)) := by
  obtain hsame | ⟨before, s, after, hbefore, hafter, -⟩ := p.grouped_add_cases hr
  · rwa [hsame]
  · rw [hbefore] at h
    rw [hafter]
    exact h.update rfl rfl

-- A plan of the first hops of a group-by path and of nothing else. Its paths grow from step to
-- step, so that no later hop of the path can share a step.
structure GroupedTo (p : Planning) (path : List String) (node : String) : Prop where
  grouped : ∀ s ∈ p.steps, s.origin.groupBy = true
  trail : Trail p.root.node node p.steps
  shorter : ∀ s ∈ p.steps, s.path.length ≤ path.length
  found : findNode? p.root p.steps path .groupBy = some node

theorem groupedTo_start (root : Root) (aliases : AliasRegistry) :
    (start root aliases).GroupedTo [] root.node :=
  ⟨by simp [start], rfl, by simp [start], rfl⟩

-- The next hop of the path is opened behind all others.
theorem GroupedTo.opens (h : p.GroupedTo path node) {r : HopRequest} (hpath : r.parentPath = path)
    (hsource : r.source = .groupBy) :
    ∃ name, (p.add r).steps = p.steps ++ [r.opened name node] := by
  have hlonger : ∀ s ∈ p.steps, s.path ≠ r.path := by
    intro s hs heq
    have hle := h.shorter s hs
    have hlength : r.path.length = path.length + 1 := by simp [HopRequest.path, hpath]
    rw [heq] at hle
    omega
  have hadd := add_cases p r
  generalize p.add r = q at hadd
  cases hadd with
  | @shared before after s hsteps hmatch hbefore =>
      exact (hlonger s (by simp [hsteps]) (HopRequest.matchesStep_iff.mp hmatch).1).elim
  | @opened parent hnew hparent =>
      rw [hpath, hsource, h.found, Option.some.injEq] at hparent
      exact ⟨_, by rw [hparent]⟩
  | dropped hnew hparent =>
      rw [hpath, hsource, h.found] at hparent
      cases hparent

theorem GroupedTo.add (h : p.GroupedTo path node) {r : HopRequest} (hpath : r.parentPath = path)
    (hsource : r.source = .groupBy) : ∃ next, (p.add r).GroupedTo r.path next := by
  obtain ⟨name, hsteps⟩ := h.opens hpath hsource
  have hlength : r.path.length = path.length + 1 := by simp [HopRequest.path, hpath]
  have horigin : (r.opened name node).origin.groupBy = true := by
    rw [HopRequest.opened, hsource]
    rfl
  refine ⟨name, ?_, ?_, ?_, ?_⟩
  · rw [hsteps, List.forall_mem_append, List.forall_mem_singleton]
    exact ⟨h.grouped, horigin⟩
  · rw [hsteps, add_root]
    exact h.trail.concat (t := r.opened name node) rfl
  · rw [hsteps, List.forall_mem_append, List.forall_mem_singleton]
    refine ⟨fun s hs => ?_, le_rfl⟩
    have hle := h.shorter s hs
    omega
  · have hnone : p.steps.find? (fun s => s.path == r.path && s.origin.has .groupBy) = none := by
      rw [List.find?_eq_none]
      intro s hs hfound
      have hle := h.shorter s hs
      rw [Bool.and_eq_true, beq_iff_eq] at hfound
      rw [hfound.1] at hle
      omega
    have hnil : r.path ≠ [] := by simp [HopRequest.path]
    rw [findNode?, if_neg (mt List.isEmpty_iff.mp hnil), findStep?, hsteps, List.find?_append,
      hnone]
    simp [HopRequest.opened, HopOrigin.has, hsource, HopOrigin.ofSource, HopOrigin.add]

variable {catalog : Catalog}

theorem addGroupHops_groupedTo {type last : NodeType} {segments : List String} {q : Planning}
    (h : p.GroupedTo path node)
    (hhops : addGroupHops catalog type path p segments = .ok (last, q)) :
    ∃ next, q.GroupedTo (path ++ segments) next := by
  induction segments generalizing type path p node with
  | nil =>
      cases hhops
      exact ⟨node, by rwa [List.append_nil]⟩
  | cons segment rest ih =>
      obtain ⟨relation, target, -, -, hrest⟩ := addGroupHops_cons_cases hhops
      obtain ⟨next, hnext⟩ :=
        h.add (r := ⟨path, segment, segment, relation, true, .groupBy⟩) rfl rfl
      obtain ⟨ending, hending⟩ := ih hnext hrest
      rw [HopRequest.path, List.append_assoc] at hending
      exact ⟨ending, hending⟩

theorem addGroupHops_faultsRequest {type : NodeType} (htype : type ∈ catalog.types)
    (path : List String) (p : Planning) (segments : List String) :
    FailsOnly RequestError.FaultsRequest (addGroupHops catalog type path p segments) := by
  induction segments generalizing type path p with
  | nil => exact .ok _
  | cons segment rest ih =>
      rw [addGroupHops]
      cases hrelation : (type.field? segment).bind Field.relation? with
      | none => exact .error trivial
      | some relation =>
          obtain ⟨field, hfield, hkind⟩ := Option.bind_eq_some_iff.mp hrelation
          have hmem := (NodeType.field?_eq_some hfield).1
          obtain ⟨target, htarget, hrequire⟩ :=
            Catalog.require_target htype hmem (Field.target?_of_relation? hkind)
          simp only [hrequire]
          exact ih htarget _ _

-- The node of the property is the one that the hops of the path have led to.
theorem addGroupBy_faultsRequest {type : NodeType} (htype : type ∈ catalog.types) (root : Root)
    (aliases : AliasRegistry) (written : String) :
    FailsOnly RequestError.FaultsRequest
      ((start root aliases).addGroupBy catalog type written) := by
  unfold addGroupBy
  apply (addGroupHops_faultsRequest htype [] _ _).bind
  rintro ⟨last, q⟩ hhops
  obtain ⟨node, hnode⟩ := addGroupHops_groupedTo (groupedTo_start root aliases) hhops
  have hfound := hnode.found
  rw [List.nil_append] at hfound
  simp only [hfound]
  split
  · exact FailsOnly.bind (.error trivial) fun _ _ => .ok _
  · exact .ok _

theorem addGroupBy_trail {type : NodeType} {root : Root} {aliases : AliasRegistry}
    {written : String} {key : GroupKey} {q : Planning}
    (h : (start root aliases).addGroupBy catalog type written = .ok (key, q)) :
    ∃ last, Trail root.node last (q.steps.filter (·.origin.groupBy)) := by
  obtain ⟨type', hhops⟩ := addGroupBy_hops h
  obtain ⟨node, hnode⟩ := addGroupHops_groupedTo (groupedTo_start root aliases) hhops
  have hroot : q.root = root := by
    rw [addGroupHops_eq hhops, foldl_add_root]
    rfl
  have htrail := hnode.trail
  rw [hroot] at htrail
  refine ⟨node, ?_⟩
  rwa [List.filter_eq_self.mpr hnode.grouped]

end Planning

namespace Plan

variable {catalog : Catalog} {root : Root} {selections : List Selection} {groupBy : Option String}
  {predicate : Predicate} {aliases aliases' : AliasRegistry} {plan : Plan}

-- Without a group-by path the outer pattern follows no hop.
theorem make_groupBySteps
    (h : make catalog root selections none predicate aliases = .ok (plan, aliases')) :
    plan.groupBySteps = [] := by
  obtain ⟨type, groups, -, hgroups, hnone, q, rfl, -, hsteps, -⟩ := make_cases h
  obtain rfl := hnone rfl
  rw [groupBySteps, List.filter_eq_nil_iff]
  intro step hstep hgrouped
  rw [hsteps] at hstep
  have horigin : step.origin.has .groupBy = true := hgrouped
  obtain ⟨r, hr, hsource, -, -⟩ := Planning.foldl_add_asked hstep horigin
  obtain ⟨hother, -⟩ | ⟨-, hgroup⟩ | ⟨hother, -⟩ := Planning.source_cases hgroups hr
  · cases hsource.symm.trans hother
  · cases hgroup
  · cases hsource.symm.trans hother

-- A read field that is grouped has no selections, as only counts are grouped.
theorem make_faultsRequest {type : NodeType} (htype : catalog.type? root.typeName = some type)
    (hgroup : groupBy = none ∨ selections = []) :
    FailsOnly RequestError.FaultsRequest
      (make catalog root selections groupBy predicate aliases) := by
  unfold make
  refine FailsOnly.bind (.of_exists ⟨type, Catalog.require_eq_ok.mpr htype⟩) fun type' hfound => ?_
  have hmem := (Catalog.type?_eq_some (Catalog.require_eq_ok.mp hfound)).1
  cases groupBy with
  | none => exact .ok _
  | some written =>
      obtain rfl := hgroup.resolve_left (by simp)
      exact FailsOnly.bind (Planning.addGroupBy_faultsRequest hmem root aliases written)
        fun _ _ => .ok _

-- The steps of the group-by path form one trail from the root, whatever else shares them.
theorem make_trail (hgroup : groupBy = none ∨ selections = [])
    (h : make catalog root selections groupBy predicate aliases = .ok (plan, aliases')) :
    ∃ last, Trail root.node last plan.groupBySteps := by
  cases groupBy with
  | none => exact ⟨root.node, by rw [make_groupBySteps h]; rfl⟩
  | some written =>
      obtain rfl := hgroup.resolve_left (by simp)
      unfold make at h
      simp only [except_bind_eq_ok] at h
      obtain ⟨type, -, ⟨key, q⟩, hadd, _, hr, h⟩ := h
      cases hr
      cases h
      obtain ⟨last, htrail⟩ := Planning.addGroupBy_trail hadd
      refine ⟨last, Planning.foldl_add_induct (motive := fun p =>
        Trail root.node last (p.steps.filter (·.origin.groupBy))) htrail ?_⟩
      intro p r hr hp
      obtain ⟨hop, -, hhop⟩ := List.mem_filterMap.mp hr
      obtain ⟨_, _, -, rfl⟩ := Planning.filterHop?_eq_some.mp hhop
      exact Planning.trail_add (by simp) hp

end Plan

end CypherCompiler
