import CypherCompiler.Compilation.Source
import CypherCompiler.Proofs.Traversal.Steps

namespace CypherCompiler

namespace Planning

variable {root : Root} {aliases : AliasRegistry} {requests : List HopRequest}

-- Whatever a step is marked with was asked for by a hop of its path and its relation.
theorem foldl_add_asked {s : Step} (hs : s ∈ (requests.foldl add (start root aliases)).steps)
    {source : HopSource} (horigin : s.origin.has source = true) :
    ∃ r ∈ requests, r.source = source ∧ r.path = s.path ∧ r.relation = s.incoming.relation := by
  refine foldl_add_induct (motive := fun p => ∀ s ∈ p.steps, s.origin.has source = true →
    ∃ r ∈ requests, r.source = source ∧ r.path = s.path ∧ r.relation = s.incoming.relation)
    (by simp [start]) ?_ s hs horigin
  intro p r hr hp t ht horigin
  obtain ht | ⟨s, hs, hmatch, rfl⟩ | ⟨parent, -, rfl⟩ := mem_add_steps ht
  · exact hp t ht horigin
  · obtain ⟨hpath, hrelation⟩ := HopRequest.matchesStep_iff.mp hmatch
    simp only [HopRequest.mergeInto, HopOrigin.has_add, Bool.or_eq_true, decide_eq_true_eq]
      at horigin
    cases horigin with
    | inl hold => exact hp s hs hold
    | inr hsource => exact ⟨r, hr, hsource, hpath.symm, hrelation.symm⟩
  · simp only [HopRequest.opened, HopOrigin.has_ofSource, decide_eq_true_eq] at horigin
    exact ⟨r, hr, horigin, rfl, rfl⟩

-- A path of one segment starts at the root.
theorem foldl_add_parent {s : Step} (hs : s ∈ (requests.foldl add (start root aliases)).steps)
    {key : String} (hkey : s.path = [key]) : s.incoming.parent = root.node := by
  suffices hall : (requests.foldl add (start root aliases)).root = root ∧
      ∀ s ∈ (requests.foldl add (start root aliases)).steps, s.path = [key] →
        s.incoming.parent = root.node from hall.2 s hs hkey
  refine foldl_add_induct (motive := fun p => p.root = root ∧ ∀ s ∈ p.steps, s.path = [key] →
    s.incoming.parent = root.node) ⟨rfl, by simp [start]⟩ ?_
  rintro p r - ⟨hroot, hp⟩
  refine ⟨by rw [add_root, hroot], ?_⟩
  intro t ht hkey
  obtain ht | ⟨s, hs, -, rfl⟩ | ⟨parent, hparent, rfl⟩ := mem_add_steps ht
  · exact hp t ht hkey
  · exact hp s hs hkey
  · have hsegments : r.parentPath ++ [r.segment] = [] ++ [key] := hkey
    have hnil : r.parentPath = [] := (List.append_inj' hsegments rfl).1
    simp only [findNode?, hnil, List.isEmpty_nil, ite_true, Option.some.injEq, hroot] at hparent
    exact hparent.symm

-- The source of a hop tells which part of the read field asked for it.
theorem source_cases {type : NodeType} {selections : List Selection} {groups : List HopRequest}
    (hgroups : ∀ r ∈ groups, r.source = .groupBy) {predicate : Predicate} {r : HopRequest}
    (hr : r ∈ selections.filterMap (selectedHop? type) ++ groups ++
      predicate.hops.filterMap filterHop?) :
    (r.source = .selection ∧ ∃ s ∈ selections, selectedHop? type s = some r) ∨
      (r.source = .groupBy ∧ r ∈ groups) ∨
      (r.source = .predicate ∧ ∃ hop ∈ predicate.hops, filterHop? hop = some r) := by
  simp only [List.mem_append, List.mem_filterMap] at hr
  obtain (⟨s, hs, hhop⟩ | hgroup) | ⟨hop, hmem, hhop⟩ := hr
  · obtain ⟨_, _, -, -, rfl⟩ := selectedHop?_cases hhop
    exact .inl ⟨rfl, s, hs, hhop⟩
  · exact .inr (.inl ⟨hgroups r hgroup, hgroup⟩)
  · obtain ⟨_, _, -, rfl⟩ := filterHop?_eq_some.mp hhop
    exact .inr (.inr ⟨rfl, hop, hmem, hhop⟩)

-- The step that was opened for a selected field.
def OpenedFor (type : NodeType) (root : Root) (selections : List Selection) (s : Step) : Prop :=
  ∃ t ∈ selections, ∃ field, type.field? t.name = some field ∧ s.path = [t.responseKey] ∧
    ∃ r : AliasRegistry, s.node = r.fresh (Alias.child root.node t.responseKey)

-- The first hops of a plan are those of its selections, all of them at the root.
theorem foldl_add_selected {type : NodeType} {selections : List Selection} :
    ∀ s ∈ ((selections.filterMap (selectedHop? type)).foldl add (start root aliases)).steps,
      OpenedFor type root selections s := by
  suffices hall : ((selections.filterMap (selectedHop? type)).foldl add
      (start root aliases)).root = root ∧
      ∀ s ∈ ((selections.filterMap (selectedHop? type)).foldl add (start root aliases)).steps,
        OpenedFor type root selections s from hall.2
  apply foldl_add_induct
    (motive := fun p => p.root = root ∧ ∀ s ∈ p.steps, OpenedFor type root selections s)
  · simp [start]
  · rintro p r hr ⟨hp, hsteps⟩
    refine ⟨by rw [add_root, hp], ?_⟩
    intro t ht
    obtain ⟨s, hs, hhop⟩ := List.mem_filterMap.mp hr
    obtain ⟨field, relation, hfield, -, rfl⟩ := selectedHop?_cases hhop
    obtain ht | ⟨u, hu, -, rfl⟩ | ⟨parent, hparent, rfl⟩ := mem_add_steps ht
    · exact hsteps t ht
    · exact hsteps u hu
    · simp only [findNode?, List.isEmpty_nil, ite_true, Option.some.injEq, hp] at hparent
      subst hparent
      exact ⟨s, hs, field, hfield, rfl, p.aliases, rfl⟩

-- A hop from the root has a step as soon as it is added.
theorem exists_step_add {r : HopRequest} {p : Planning} (hpath : r.parentPath = []) :
    ∃ s ∈ (p.add r).steps, s.path = r.path ∧ s.incoming.relation = r.relation ∧
      (r.required = true → s.required = true) ∧ s.origin.has r.source = true := by
  have hadd := add_cases p r
  generalize p.add r = q at hadd
  cases hadd with
  | @shared before after s hsteps hmatch hbefore =>
      obtain ⟨hspath, hrelation⟩ := HopRequest.matchesStep_iff.mp hmatch
      refine ⟨r.mergeInto s, by simp, hspath, hrelation, ?_, ?_⟩
      · intro hrequired
        simp [HopRequest.mergeInto, hrequired]
      · simp [HopRequest.mergeInto, HopOrigin.has_add]
  | @opened parent hnew hparent =>
      refine ⟨r.opened (p.aliases.fresh (Alias.child parent r.key)) parent, by simp, rfl, rfl,
        id, ?_⟩
      simp [HopRequest.opened, HopOrigin.has_ofSource]
  | dropped hnew hmissing => simp [findNode?, hpath] at hmissing

theorem exists_step_foldl_add {r : HopRequest} (hr : r ∈ requests) (hpath : r.parentPath = [])
    (p : Planning) :
    ∃ s ∈ (requests.foldl add p).steps, s.path = r.path ∧ s.incoming.relation = r.relation ∧
      (r.required = true → s.required = true) ∧ s.origin.has r.source = true := by
  obtain ⟨first, rest, rfl⟩ := List.append_of_mem hr
  rw [List.foldl_append, List.foldl_cons]
  refine foldl_add_induct (motive := fun q => ∃ s ∈ q.steps, s.path = r.path ∧
    s.incoming.relation = r.relation ∧ (r.required = true → s.required = true) ∧
    s.origin.has r.source = true) (exists_step_add hpath) ?_
  rintro q t - ⟨s, hs, hspath, hrelation, hrequired, horigin⟩
  obtain ⟨u, hu, hkept⟩ := mem_add_of_mem hs t
  exact ⟨u, hu, hkept.path.trans hspath, by rw [hkept.incoming, hrelation],
    fun h => hkept.required (hrequired h), hkept.origin _ horigin⟩

-- A required hop from the root has a step that stays required.
def HasRequired (r : HopRequest) (p : Planning) : Prop :=
  ∃ s ∈ p.steps, s.path = r.path ∧ s.incoming.relation = r.relation ∧ s.required = true ∧
    s.origin.has r.source = true

theorem hasRequired_foldl_add {r : HopRequest} (hr : r ∈ requests) (hpath : r.parentPath = [])
    (hrequired : r.required = true) (p : Planning) : HasRequired r (requests.foldl add p) := by
  obtain ⟨s, hs, hspath, hrelation, hstays, horigin⟩ := exists_step_foldl_add hr hpath p
  exact ⟨s, hs, hspath, hrelation, hstays hrequired, horigin⟩

end Planning

namespace Plan

variable {catalog : Catalog} {root : Root} {selections : List Selection} {predicate : Predicate}
  {aliases aliases' : AliasRegistry} {plan : Plan}

-- The step of a selected relationship is named after its response key: it was there before
-- any other part of the field asked for a hop.
theorem make_selected {groupBy : Option String}
    (hplan : make catalog root selections groupBy predicate aliases = .ok (plan, aliases'))
    {s : Step} (hs : s ∈ plan.steps) (horigin : s.origin.has .selection = true) :
    ∃ type, catalog.type? root.typeName = some type ∧
      Planning.OpenedFor type root selections s := by
  obtain ⟨type, groups, htype, hgroups, -, q, hq, -, hsteps, -⟩ := make_cases hplan
  refine ⟨type, htype, ?_⟩
  rw [List.append_assoc, List.foldl_append] at hq
  have hother : ∀ r ∈ groups ++ predicate.hops.filterMap Planning.filterHop?,
      r.source ≠ .selection := by
    intro r hr
    rcases List.mem_append.mp hr with hr | hr
    · simp [hgroups r hr]
    · obtain ⟨hop, -, hhop⟩ := List.mem_filterMap.mp hr
      obtain ⟨path, segment, -, rfl⟩ := Planning.filterHop?_eq_some.mp hhop
      simp
  rw [hsteps, hq] at hs
  -- later hops may share a step of a selection, but mark no step as one
  refine Planning.foldl_add_induct (motive := fun p => ∀ s ∈ p.steps,
    s.origin.has .selection = true → Planning.OpenedFor type root selections s) ?_ ?_ s hs horigin
  · exact fun s hs _ => Planning.foldl_add_selected s hs
  · intro p r hr hp t ht horigin
    obtain ht | ⟨u, hu, -, rfl⟩ | ⟨parent, -, rfl⟩ := Planning.mem_add_steps ht
    · exact hp t ht horigin
    · apply hp u hu
      simpa [HopRequest.mergeInto, HopOrigin.has_add, hother r hr] using horigin
    · simp [HopRequest.opened, HopOrigin.has_ofSource, hother r hr] at horigin

theorem make_parent {groupBy : Option String}
    (hplan : make catalog root selections groupBy predicate aliases = .ok (plan, aliases'))
    {s : Step} (hs : s ∈ plan.steps) {key : String} (hkey : s.path = [key]) :
    s.incoming.parent = root.node := by
  obtain ⟨type, groups, -, -, -, q, rfl, -, hsteps, -⟩ := make_cases hplan
  exact Planning.foldl_add_parent (hsteps ▸ hs) hkey

-- The step found under a response key is that of a selection with this key.
theorem selectionStep?_cases {groupBy : Option String}
    (hplan : make catalog root selections groupBy predicate aliases = .ok (plan, aliases'))
    {key : String} {step : Step} (h : plan.selectionStep? key = some step) :
    ∃ type, catalog.type? root.typeName = some type ∧ ∃ t ∈ selections, t.responseKey = key ∧
      (type.field? t.name).bind Field.relation? = some step.incoming.relation := by
  obtain ⟨type, groups, htype, hgroups, -, q, rfl, -, hsteps, -⟩ := make_cases hplan
  obtain ⟨hmem, hpath, horigin⟩ := findStep?_eq_some h
  rw [hsteps] at hmem
  obtain ⟨r, hr, hsource, hrpath, hrelation⟩ := Planning.foldl_add_asked hmem horigin
  obtain ⟨-, t, ht, hhop⟩ | ⟨hother, -⟩ | ⟨hother, -⟩ := Planning.source_cases hgroups hr
  · obtain ⟨field, relation, hfield, hkind, rfl⟩ := Planning.selectedHop?_cases hhop
    refine ⟨type, htype, t, ht, List.singleton_inj.mp (hrpath.trans hpath), ?_⟩
    rw [hfield, Option.bind_some, hkind]
    exact congrArg some hrelation
  · cases hsource.symm.trans hother
  · cases hsource.symm.trans hother

-- A selected relationship has a step.
theorem exists_selectionStep? {groupBy : Option String} {type : NodeType}
    (htype : catalog.type? root.typeName = some type)
    (hplan : make catalog root selections groupBy predicate aliases = .ok (plan, aliases'))
    {t : Selection} (ht : t ∈ selections) {field : Field} (hfield : type.field? t.name = some field)
    {relation : Relation} (hrelation : field.relation? = some relation) :
    ∃ step, plan.selectionStep? t.responseKey = some step := by
  obtain ⟨type', groups, htype', -, -, q, rfl, -, hsteps, -⟩ := make_cases hplan
  obtain rfl : type' = type := Option.some.inj (htype'.symm.trans htype)
  have hhop : Planning.selectedHop? type' t = some ⟨[], t.responseKey, t.responseKey, relation,
      !field.list && field.required, .selection⟩ := by
    simp [Planning.selectedHop?, hfield, hrelation]
  have hmem := List.mem_append_left (predicate.hops.filterMap Planning.filterHop?)
    (List.mem_append_left groups (List.mem_filterMap.mpr ⟨t, ht, hhop⟩))
  obtain ⟨s, hs, hpath, -, -, horigin⟩ :=
    Planning.exists_step_foldl_add hmem rfl (Planning.start root aliases)
  unfold selectionStep? step? findStep?
  rw [← Option.isSome_iff_exists, List.find?_isSome, hsteps]
  have hkey : s.path = [t.responseKey] := hpath
  exact ⟨s, hs, by simp [hkey, horigin]⟩

-- A selected relationship that has to be there has a step from the root. Its presence is
-- stated by a condition of its own, unless a hop of the filter shares the step.
theorem make_requires {type : NodeType} (htype : catalog.type? root.typeName = some type)
    (hplan : make catalog root selections none predicate aliases = .ok (plan, aliases'))
    {t : Selection} (ht : t ∈ selections) {field : Field} (hfield : type.field? t.name = some field)
    {relation : Relation} (hrelation : field.relation? = some relation)
    (hlist : field.list = false) (hrequired : field.required = true) :
    ∃ step ∈ plan.steps, step.incoming = ⟨root.node, relation⟩ ∧
      (isRequiredOnlyBySelection step = true ∨
        ∃ hop ∈ predicate.hops, hop.path = [t.responseKey] ∧ hop.relation = relation) := by
  obtain ⟨type', groups, htype', hgroups, hnone, q, rfl, -, hsteps, -⟩ := make_cases hplan
  obtain rfl : type' = type := Option.some.inj (htype'.symm.trans htype)
  have hhop : Planning.selectedHop? type' t =
      some ⟨[], t.responseKey, t.responseKey, relation, true, .selection⟩ := by
    simp [Planning.selectedHop?, hfield, hrelation, hlist, hrequired]
  have hmem := List.mem_append_left (predicate.hops.filterMap Planning.filterHop?)
    (List.mem_append_left groups (List.mem_filterMap.mpr ⟨t, ht, hhop⟩))
  obtain ⟨step, hstep, hpath, hincoming, hstays, hselected⟩ :=
    Planning.hasRequired_foldl_add hmem rfl rfl (Planning.start root aliases)
  have hkey : step.path = [t.responseKey] := hpath
  have hfollowed : step.incoming.relation = relation := hincoming
  have hparent := Planning.foldl_add_parent hstep hkey
  refine ⟨step, hsteps ▸ hstep, by rw [← hparent, ← hfollowed], ?_⟩
  -- who else asked for the step
  have hasked := fun (source : HopSource) (h : step.origin.has source = true) =>
    Planning.foldl_add_asked hstep h
  by_cases hgrouped : step.origin.groupBy = true
  · obtain ⟨r, hr, hsource, -, -⟩ := hasked .groupBy hgrouped
    obtain ⟨hother, -⟩ | ⟨-, hgroup⟩ | ⟨hother, -⟩ := Planning.source_cases hgroups hr
    · cases hsource.symm.trans hother
    · rw [hnone rfl] at hgroup
      cases hgroup
    · cases hsource.symm.trans hother
  by_cases hshared : step.origin.predicate = true
  · right
    obtain ⟨r, hr, hsource, hrpath, hrrelation⟩ := hasked .predicate hshared
    obtain ⟨hother, -⟩ | ⟨hother, -⟩ | ⟨-, hop, hop_mem, hfilter⟩ :=
      Planning.source_cases hgroups hr
    · cases hsource.symm.trans hother
    · cases hsource.symm.trans hother
    · obtain ⟨path, segment, hhopPath, rfl⟩ := Planning.filterHop?_eq_some.mp hfilter
      exact ⟨hop, hop_mem, hhopPath.trans (hrpath.trans hkey), hrrelation.trans hfollowed⟩
  · left
    have horigin : step.origin.selection = true := hselected
    simp [isRequiredOnlyBySelection, hstays, horigin, hshared, hgrouped]

end Plan

end CypherCompiler
