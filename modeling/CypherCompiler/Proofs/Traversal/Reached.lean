import CypherCompiler.Proofs.Traversal.Steps

namespace CypherCompiler

-- A filter path leads to the root, or to the node of the step that stands for it.
def LeadsTo (root : Root) (steps : List Step) (path : List String) (node : String) : Prop :=
  (path = [] ∧ node = root.node) ∨
    ∃ s ∈ steps, s.path = path ∧ s.origin.has .predicate = true ∧ s.node = node

-- What tells the steps of a plan apart.
def Step.place (s : Step) : List String × Relation := (s.path, s.incoming.relation)

theorem leadsTo_of_findNode? {root : Root} {steps : List Step} {path : List String}
    {source : HopSource} {node : String} (h : findNode? root steps path source = some node)
    (hsource : path = [] ∨ source = .predicate) : LeadsTo root steps path node := by
  obtain rfl | rfl := hsource
  · simp only [findNode?, List.isEmpty_nil, ite_true, Option.some.injEq] at h
    exact .inl ⟨rfl, h.symm⟩
  · exact findNode?_cases h

-- A path that leads somewhere is found.
theorem LeadsTo.exists_findStep? {root : Root} {steps : List Step} {path : List String}
    {node : String} (h : LeadsTo root steps path node) (hpath : path ≠ []) :
    ∃ s, findStep? steps path .predicate = some s := by
  obtain ⟨hnil, -⟩ | ⟨s, hs, hspath, horigin, -⟩ := h
  · exact (hpath hnil).elim
  · exact CypherCompiler.exists_findStep? ⟨s, hs, hspath, horigin⟩

theorem LeadsTo.exists_node? {plan : Plan} {path : List String} {node : String}
    (h : LeadsTo plan.root plan.steps path node) :
    ∃ found, plan.node? path .predicate = some found := by
  obtain ⟨hnil, -⟩ | ⟨s, hs, hspath, horigin, -⟩ := h
  · exact exists_findNode? (.inl hnil)
  · exact exists_findNode? (.inr ⟨s, hs, hspath, horigin⟩)

namespace Planning

variable {p : Planning} {path : List String} {node : String}

def Reaches (p : Planning) (path : List String) : Prop := ∃ node, LeadsTo p.root p.steps path node

theorem leadsTo_add (h : LeadsTo p.root p.steps path node) (r : HopRequest) :
    LeadsTo (p.add r).root (p.add r).steps path node := by
  obtain ⟨hpath, hnode⟩ | ⟨s, hs, hpath, horigin, hnode⟩ := h
  · exact .inl ⟨hpath, by rw [add_root, hnode]⟩
  · obtain ⟨t, ht, hkept⟩ := mem_add_of_mem hs r
    exact .inr ⟨t, ht, hkept.path.trans hpath, hkept.origin _ horigin, hkept.node.trans hnode⟩

theorem Reaches.add (h : p.Reaches path) (r : HopRequest) : (p.add r).Reaches path := by
  obtain ⟨node, hnode⟩ := h
  exact ⟨node, leadsTo_add hnode r⟩

theorem Reaches.foldl_add (h : p.Reaches path) (requests : List HopRequest) :
    (requests.foldl Planning.add p).Reaches path :=
  foldl_add_induct (motive := fun q => q.Reaches path) h fun _ r _ hq => hq.add r

-- A hop of a filter is reached as soon as it is added.
theorem reaches_add {r : HopRequest} (hsource : r.source = .predicate)
    (hparent : p.Reaches r.parentPath) : (p.add r).Reaches r.path := by
  have hadd := add_cases p r
  generalize p.add r = q at hadd
  cases hadd with
  | @shared before after s hsteps hmatch hbefore =>
      rw [HopRequest.matchesStep_iff] at hmatch
      refine ⟨s.node, .inr ⟨r.mergeInto s, by simp, hmatch.1, ?_, rfl⟩⟩
      simp [HopRequest.mergeInto, HopOrigin.has_add, hsource]
  | @opened parent hnew hfound =>
      refine ⟨_, .inr ⟨r.opened (p.aliases.fresh (Alias.child parent r.key)) parent, by simp, rfl,
        ?_, rfl⟩⟩
      simp [HopRequest.opened, HopOrigin.has_ofSource, hsource]
  | dropped hnew hmissing =>
      -- the parent of the hop has a step already
      obtain ⟨node, hnode⟩ := hparent
      by_cases hpath : r.parentPath = []
      · simp [findNode?, hpath] at hmissing
      · obtain ⟨s, hs⟩ := hnode.exists_findStep? hpath
        simp [findNode?, hpath, hsource, hs] at hmissing

mutual

-- Outer hops are added before those inside them, so that none is left out.
theorem reaches_hops (predicate : Predicate) {path : List String} {p : Planning}
    (hscope : Predicate.ScopedAt path predicate) (hpath : p.Reaches path) :
    ∀ hop ∈ predicate.hops,
      ((predicate.hops.filterMap filterHop?).foldl add p).Reaches hop.path := by
  match predicate, hscope with
  | .compare _, _ => simp [Predicate.hops]
  | .all children, hscope =>
      rw [Predicate.hops]
      exact reaches_hopsOfAll children hscope hpath
  | .any children, hscope =>
      rw [Predicate.hops]
      exact reaches_hopsOfAll children hscope hpath
  | .not child, hscope =>
      rw [Predicate.hops]
      exact reaches_hops child hscope hpath
  | .related hop child, hscope =>
      obtain ⟨⟨segment, hsegment⟩, hchild⟩ := hscope
      have hrequest : filterHop? hop =
          some ⟨path, segment, hop.field, hop.relation, true, .predicate⟩ :=
        filterHop?_eq_some.mpr ⟨path, segment, hsegment, rfl⟩
      have hadded : (p.add ⟨path, segment, hop.field, hop.relation, true, .predicate⟩).Reaches
          hop.path := by
        rw [hsegment]
        exact reaches_add rfl hpath
      rw [Predicate.hops, List.filterMap_cons_some hrequest, List.foldl_cons]
      intro inner hinner
      rcases List.mem_cons.mp hinner with rfl | hinner
      · exact hadded.foldl_add _
      · exact reaches_hops child hchild hadded inner hinner
termination_by sizeOf predicate

theorem reaches_hopsOfAll (children : List Predicate) {path : List String} {p : Planning}
    (hscope : Predicate.AllScopedAt path children) (hpath : p.Reaches path) :
    ∀ hop ∈ Predicate.hopsOfAll children,
      (((Predicate.hopsOfAll children).filterMap filterHop?).foldl add p).Reaches hop.path := by
  match children, hscope with
  | [], _ => simp [Predicate.hopsOfAll]
  | child :: rest, hscope =>
      obtain ⟨hchild, hrest⟩ := hscope
      rw [Predicate.hopsOfAll, List.filterMap_append, List.foldl_append]
      intro hop hhop
      rcases List.mem_append.mp hhop with hhop | hhop
      · exact (reaches_hops child hchild hpath hop hhop).foldl_add _
      · exact reaches_hopsOfAll rest hrest (hpath.foldl_add _) hop hhop
termination_by sizeOf children

end

-- Each step has a place of its own, and starts where the rest of its path leads.
structure Connected (p : Planning) : Prop where
  distinct : (p.steps.map Step.place).Nodup
  path_ne_nil : ∀ s ∈ p.steps, s.path ≠ []
  parent : ∀ s ∈ p.steps, LeadsTo p.root p.steps s.path.dropLast s.incoming.parent

theorem add_place {r : HopRequest} (h : (p.steps.map Step.place).Nodup) :
    ((p.add r).steps.map Step.place).Nodup := by
  have hadd := add_cases p r
  generalize p.add r = q at hadd
  cases hadd with
  | @shared before after s hsteps hmatch hbefore =>
      rw [hsteps] at h
      simpa [HopRequest.mergeInto, Step.place] using h
  | @opened parent hnew hfound =>
      rw [List.map_append, List.map_singleton, ← List.concat_eq_append]
      refine h.concat ?_
      intro hplace
      obtain ⟨s, hs, heq⟩ := List.mem_map.mp hplace
      have hsame : s.path = r.path ∧ s.incoming.relation = r.relation := Prod.mk.inj heq
      have hmatch := HopRequest.matchesStep_iff.mpr hsame
      rw [hnew s hs] at hmatch
      cases hmatch
  | dropped => exact h

theorem Connected.add (h : p.Connected) {r : HopRequest}
    (hr : r.parentPath = [] ∨ r.source = .predicate) : (p.add r).Connected := by
  refine ⟨add_place h.distinct, ?_, ?_⟩
  · intro t ht
    obtain ht | ⟨s, hs, -, rfl⟩ | ⟨parent, -, rfl⟩ := mem_add_steps ht
    · exact h.path_ne_nil t ht
    · exact h.path_ne_nil s hs
    · simp [HopRequest.opened, HopRequest.path]
  · intro t ht
    obtain ht | ⟨s, hs, -, rfl⟩ | ⟨parent, hparent, rfl⟩ := mem_add_steps ht
    · exact leadsTo_add (h.parent t ht) r
    · exact leadsTo_add (h.parent s hs) r
    · have hpath : (r.opened (p.aliases.fresh (Alias.child parent r.key)) parent).path.dropLast =
          r.parentPath := List.dropLast_concat
      rw [hpath]
      exact leadsTo_add (leadsTo_of_findNode? hparent hr) r

theorem connected_foldl_add {root : Root} {aliases : AliasRegistry} {requests : List HopRequest}
    (hrequests : ∀ r ∈ requests, r.parentPath = [] ∨ r.source = .predicate) :
    (requests.foldl Planning.add (start root aliases)).Connected := by
  have hstart : (start root aliases).Connected :=
    ⟨by simp [start], by simp [start], by simp [start]⟩
  exact foldl_add_induct (motive := Connected) hstart fun p r hr hp => hp.add (hrequests r hr)

-- Two steps of one path have the relation that the path stands for, and so are the same step.
theorem Connected.node_unique (h : p.Connected) {catalog : Catalog}
    (hcatalog : catalog.HasDistinctHops) {type : NodeType} (htype : type ∈ catalog.types)
    (hfollows : FollowsPaths catalog type p.steps) {a b : String}
    (ha : LeadsTo p.root p.steps path a) (hb : LeadsTo p.root p.steps path b) : a = b := by
  obtain ⟨rfl, rfl⟩ | ⟨s, hs, hspath, hsorigin, rfl⟩ := ha <;>
    obtain ⟨hpath, rfl⟩ | ⟨t, ht, htpath, htorigin, rfl⟩ := hb
  · rfl
  · exact (h.path_ne_nil t ht htpath).elim
  · exact (h.path_ne_nil s hs (hspath.trans hpath)).elim
  · have hpath : s.path = t.path := hspath.trans htpath.symm
    have hrelation := (hfollows s hs hsorigin).unique hcatalog htype
      (hpath ▸ hfollows t ht htorigin)
    rw [List.inj_on_of_nodup_map h.distinct hs ht (Prod.ext hpath hrelation)]

end Planning

-- A name that is given to one step only stands for one path.
theorem NewlyNamed.path_injective {before after : AliasRegistry} {steps : List Step}
    (h : NewlyNamed before after steps) {root : Root} (hroot : root.node ∈ before.taken)
    {path path' : List String} {a : String} (ha : LeadsTo root steps path a)
    (hb : LeadsTo root steps path' a) : path = path' := by
  have hother : ∀ s ∈ steps, s.node ≠ root.node := by
    intro s hs heq
    exact h.fresh s hs (heq ▸ hroot)
  obtain ⟨rfl, rfl⟩ | ⟨s, hs, hspath, -, rfl⟩ := ha <;>
    obtain ⟨hpath, hnode⟩ | ⟨t, ht, htpath, -, hnode⟩ := hb
  · exact hpath.symm
  · exact (hother t ht hnode).elim
  · exact (hother s hs hnode).elim
  · rw [← hspath, ← htpath, h.eq_of_node_eq ht hs hnode]

-- The nodes of a plan stand for the paths of a filter, one for each.
structure Plan.Covers (plan : Plan) (hops : List FilterHop) : Prop where
  unique : ∀ path a b, LeadsTo plan.root plan.steps path a → LeadsTo plan.root plan.steps path b →
    a = b
  injective : ∀ path path' a, LeadsTo plan.root plan.steps path a →
    LeadsTo plan.root plan.steps path' a → path = path'
  parent : ∀ s ∈ plan.steps, LeadsTo plan.root plan.steps s.path.dropLast s.incoming.parent
  reached : ∀ hop ∈ hops, ∃ node, LeadsTo plan.root plan.steps hop.path node

namespace Plan

theorem Covers.node? {plan : Plan} {hops : List FilterHop} (h : plan.Covers hops)
    {path : List String} {node : String} (hnode : LeadsTo plan.root plan.steps path node) :
    plan.node? path .predicate = some node := by
  obtain ⟨found, hfound⟩ := hnode.exists_node?
  rw [hfound, h.unique path found node (leadsTo_of_findNode? hfound (.inr rfl)) hnode]

-- The hops of a filter are planned behind all others, and none of them is left out.
theorem make_reached {catalog : Catalog} {root : Root} {selections : List Selection}
    {groupBy : Option String} {predicate : Predicate} (hscope : Predicate.ScopedAt [] predicate)
    {aliases aliases' : AliasRegistry} {plan : Plan}
    (h : make catalog root selections groupBy predicate aliases = .ok (plan, aliases')) :
    ∀ hop ∈ predicate.hops, ∃ node, LeadsTo plan.root plan.steps hop.path node := by
  obtain ⟨type, groups, -, -, -, q, rfl, hroot, hsteps, -⟩ := make_cases h
  have hreached := Planning.reaches_hops predicate hscope (p := (selections.filterMap
    (Planning.selectedHop? type) ++ groups).foldl Planning.add (Planning.start root aliases))
    ⟨_, .inl ⟨rfl, rfl⟩⟩
  intro hop hhop
  obtain ⟨node, hnode⟩ := hreached hop hhop
  rw [← List.foldl_append] at hnode
  refine ⟨node, ?_⟩
  rw [hsteps, hroot]
  rw [Planning.foldl_add_root] at hnode
  exact hnode

-- Without a group-by path, all steps of a plan belong to its selections and its filter.
theorem make_covers {catalog : Catalog} (hcatalog : catalog.HasDistinctHops) {root : Root}
    {type : NodeType} (htype : catalog.type? root.typeName = some type)
    {selections : List Selection} {predicate : Predicate}
    (hscope : Predicate.ScopedAt [] predicate)
    (hhops : ∀ hop ∈ predicate.hops, catalog.Follows type hop.path hop.relation)
    {aliases aliases' : AliasRegistry} {plan : Plan}
    (h : make catalog root selections none predicate aliases = .ok (plan, aliases')) :
    plan.Covers predicate.hops := by
  have htypes := (Catalog.type?_eq_some htype).1
  have hnamed := make_newlyNamed h
  have hfollows := make_followsPaths hhops h
  have hreached := make_reached hscope h
  obtain ⟨type', groups, -, -, hnone, q, hq, hroot, hsteps, -⟩ := make_cases h
  rw [hnone rfl, List.append_nil] at hq
  have hqroot : q.root = root := by
    rw [hq, Planning.foldl_add_root]
    rfl
  have hconnected : q.Connected := by
    rw [hq]
    refine Planning.connected_foldl_add fun r hr => ?_
    rcases List.mem_append.mp hr with hr | hr
    · obtain ⟨s, -, hs⟩ := List.mem_filterMap.mp hr
      obtain ⟨_, _, -, -, rfl⟩ := Planning.selectedHop?_cases hs
      exact .inl rfl
    · obtain ⟨hop, -, hr⟩ := List.mem_filterMap.mp hr
      obtain ⟨path, segment, -, rfl⟩ := Planning.filterHop?_eq_some.mp hr
      exact .inr rfl
  rw [← hqroot] at hroot hnamed
  rw [hsteps] at hnamed hfollows
  refine ⟨?_, ?_, ?_, hreached⟩ <;> rw [hroot, hsteps]
  · exact fun path a b => hconnected.node_unique hcatalog htypes hfollows
  · exact fun path path' a => hnamed.path_injective (AliasRegistry.mem_reserve.mpr (.inl rfl))
  · exact hconnected.parent

-- A plan without a group-by path is made for every filter.
theorem exists_make {catalog : Catalog} {root : Root} {type : NodeType}
    (htype : catalog.type? root.typeName = some type) (selections : List Selection)
    (predicate : Predicate) (aliases : AliasRegistry) :
    ∃ plan aliases', make catalog root selections none predicate aliases =
      .ok (plan, aliases') := by
  unfold make
  rw [Catalog.require_eq_ok.mpr htype]
  exact ⟨_, _, rfl⟩

end Plan

end CypherCompiler
