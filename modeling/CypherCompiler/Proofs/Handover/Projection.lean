import CypherCompiler.Proofs.Handover.Filter
import CypherCompiler.Proofs.Supply.Projection

namespace CypherCompiler

open Cypher

namespace Plan

variable {p : Plan}

mutual

-- A comparison is made on the node of the innermost hop around it, which is bound last.
theorem condition_uses {scope : Scope} {path : List String} {node type : String}
    (hnode : p.node? path .predicate = some node) (hbound : scope.lookup node = some type)
    (predicate : Predicate) (hscope : predicate.ScopedAt path) {c : Condition}
    (h : p.condition predicate = .ok c) : c.uses scope = predicate.uses type := by
  cases predicate with
  | compare comparison =>
      obtain ⟨found, hfound, rfl⟩ := condition_compare_eq_ok.mp h
      rw [show comparison.path = path from hscope, hnode] at hfound
      cases hfound
      rw [Condition.uses, Predicate.uses, hbound]
      rfl
  | all children =>
      obtain ⟨cs, hcs, rfl⟩ := condition_all_eq_ok.mp h
      rw [Condition.uses, Predicate.uses]
      exact conditions_uses hnode hbound children hscope hcs
  | any children =>
      obtain ⟨cs, hcs, rfl⟩ := condition_any_eq_ok.mp h
      rw [Condition.uses, Predicate.uses]
      exact conditions_uses hnode hbound children hscope hcs
  | not child =>
      obtain ⟨inner, hinner, rfl⟩ := condition_not_eq_ok.mp h
      rw [Condition.uses, Predicate.uses]
      exact condition_uses hnode hbound child hscope hinner
  | related hop child =>
      obtain ⟨s, inner, hstep, hinner, rfl⟩ := condition_related_eq_ok.mp h
      obtain ⟨⟨segment, hpath⟩, hchild⟩ := hscope
      have hend : p.node? hop.path .predicate = some s.node := by
        rw [node?, findNode?, if_neg (by simp [hpath])]
        exact congrArg (Option.map Step.node) hstep
      rw [Condition.uses, Predicate.uses]
      exact condition_uses hend (by simp) child hchild hinner
termination_by sizeOf predicate

theorem conditions_uses {scope : Scope} {path : List String} {node type : String}
    (hnode : p.node? path .predicate = some node) (hbound : scope.lookup node = some type)
    (children : List Predicate) (hscope : Predicate.AllScopedAt path children)
    {cs : List Condition} (h : p.conditions children = .ok cs) :
    Condition.usesOfAll scope cs = Predicate.usesOfAll type children := by
  cases children with
  | nil =>
      cases conditions_nil_eq_ok.mp h
      rfl
  | cons child rest =>
      obtain ⟨c, more, hc, hmore, rfl⟩ := conditions_cons_eq_ok.mp h
      rw [Condition.usesOfAll, Predicate.usesOfAll,
        condition_uses hnode hbound child hscope.1 hc,
        conditions_uses hnode hbound rest hscope.2 hmore]
termination_by sizeOf children

end

variable {type : NodeType} {predicate : Predicate}

-- The pattern binds the root with the name of its type.
theorem pattern_scope {pattern : Pattern}
    (hincoming : ∀ incoming ∈ p.root.incoming, incoming.relation.target = type.name)
    (h : p.pattern type = .ok pattern) :
    pattern.scope.lookup p.root.node = some type.name := by
  unfold Plan.pattern at h
  simp only [except_bind_eq_ok, except_pure_eq_ok] at h
  obtain ⟨hops, -, rfl⟩ := h
  rw [Pattern.scope]
  cases hroot : p.root.incoming with
  | none => simp [Start.binding, NodeType.labels]
  | some incoming => simp [Start.binding, Hop.binding, hincoming incoming hroot]

theorem source_uses
    (hincoming : ∀ incoming ∈ p.root.incoming, incoming.relation.target = type.name)
    (hscope : predicate.ScopedAt []) {search : Option SearchCall} {source : Source}
    (h : p.source type predicate search = .ok source) (scope : Scope) :
    source.uses scope = predicate.uses type.name := by
  obtain ⟨-, hpattern, hconditions⟩ := source_eq_ok h
  obtain ⟨stated, hall, hstated⟩ := sourceConditions_eq_ok hconditions
  have hbound : (source.pattern.scope ++ scope).lookup p.root.node = some type.name := by
    rw [List.lookup_append, pattern_scope hincoming hpattern, Option.some_or]
  rw [Source.uses, hall, Condition.usesOfAll_append, ← List.map_map,
    Condition.usesOfAll_leadsSomewhere, List.append_nil]
  obtain ⟨rfl, rfl⟩ | ⟨c, hc, rfl⟩ := hstated
  · rfl
  · rw [Condition.usesOfAll, condition_uses rfl hbound predicate hscope hc]
    exact List.append_nil _

end Plan

namespace Selection

variable {s : Selection} {setting : Setting} {root : Root} {path : ParameterPath} {d d' : Draft}
  {final : Parameters}

-- A read field is tested on its own type, whichever nodes are bound around it.
theorem planRead_handsOver {type : NodeType}
    (htype : setting.catalog.type? root.typeName = some type)
    (hincoming : ∀ incoming ∈ root.incoming, incoming.relation.target = root.typeName)
    {selections : List Selection} {groupBy : Option String} {read : ReadPlan}
    (hread : s.planRead setting.catalog setting.strictArguments root path selections groupBy d =
      .ok (read, d')) (hfinal : d'.parameters.Extends final) {search : Option SearchCall}
    {source : Source} (hsource : read.plan.source type read.predicate search = .ok source)
    (scope : Scope) :
    List.Forall₂ (HandedOver setting.catalog final) (GivenValue.ofTests setting.catalog type s)
      (source.uses scope) := by
  obtain ⟨found, hfound, hpredicate, hplan⟩ := planRead_cases hread
  obtain rfl : found = type := Option.some.inj (hfound.symm.trans htype)
  obtain ⟨hmem, hname⟩ := Catalog.type?_eq_some htype
  have hroot := Plan.make_root hplan
  have hscope := (Predicate.ofSelection_inScope hpredicate).1.1
  rw [Plan.source_uses (by rw [hroot, hname]; exact hincoming) hscope hsource]
  exact Predicate.ofSelection_handsOver hmem hpredicate hfinal

theorem planRead_shows {type : NodeType}
    (htype : setting.catalog.type? root.typeName = some type) {selections : List Selection}
    {groupBy : Option String} {read : ReadPlan}
    (hread : s.planRead setting.catalog setting.strictArguments root path selections groupBy d =
      .ok (read, d')) :
    read.plan.Shows type selections := by
  obtain ⟨-, -, -, hplan⟩ := planRead_cases hread
  exact Plan.make_shows htype hplan

-- A read statement: the tests of its field come before the items that it shows.
theorem readWith_handsOver {project : NodeType → Plan → Drafting (List Item)} {query : ReadQuery}
    (hincoming : ∀ incoming ∈ root.incoming, incoming.relation.target = root.typeName)
    (h : s.readWith setting root path project d = .ok (query, d'))
    (hfinal : d'.parameters.Extends final)
    (hsupplies : ∀ {type : NodeType} {plan : Plan} {e f : Draft} {items : List Item},
      project type plan e = .ok (items, f) → e.parameters.Extends f.parameters)
    (hproject : ∀ {type : NodeType} {plan : Plan} {e f : Draft} {items : List Item},
      plan.Shows type s.selections → project type plan e = .ok (items, f) →
      f.parameters.Extends final → ∀ scope,
        List.Forall₂ (HandedOver setting.catalog final)
          (GivenValue.ofSelections setting.catalog type s.selections s.selections)
          (Item.usesOfAll scope items)) (scope : Scope) :
    ∃ type, setting.catalog.type? root.typeName = some type ∧
      List.Forall₂ (HandedOver setting.catalog final)
        (GivenValue.ofTests setting.catalog type s ++
          GivenValue.ofSelections setting.catalog type s.selections s.selections)
        (query.uses scope) := by
  obtain ⟨head, e, f, items, order, window, hhead, hitems, -, hwindow, -, rfl⟩ := readWith_cases h
  obtain ⟨search, g, read, htype, -, hread, hplanned, hsource, -⟩ := readHead_cases hhead
  have hshown := (window_supplies hwindow).toExtends.trans hfinal
  have htested := (hsupplies hitems).trans hshown
  rw [hplanned] at hitems
  refine ⟨head.type, htype, ?_⟩
  rw [ReadQuery.uses]
  exact List.rel_append (planRead_handsOver htype hincoming hread htested hsource scope)
    (hproject (planRead_shows htype hread) hitems hshown _)

-- The fields that stand for no field of the type have no values.
theorem project_internal {type : NodeType} {node : String} {plan : Plan} {item : Item}
    (hname : s.name = typeNameField ∨ s.name = Argument.nodeId)
    (h : s.project setting type node plan d = .ok (item, d')) (scope : Scope) :
    item.uses scope = [] := by
  cases s with
  | mk name aliasName arguments selections =>
      rw [project] at h
      split at h
      · cases pure_eq_ok.mp h
        rfl
      · rename_i hother
        rw [if_pos (hname.resolve_left hother)] at h
        cases pure_eq_ok.mp h
        rfl

-- A field of the type is looked at by its kind.
theorem ofSelection_field {catalog : Catalog} {type : NodeType} {siblings : List Selection}
    (hname : ¬ (s.name = typeNameField ∨ s.name = Argument.nodeId)) {field : Field}
    (hfield : type.field? s.name = some field) :
    GivenValue.ofSelection catalog type siblings s =
      match field.kind with
      | .relationship _ =>
        match (type.selectedRelation? siblings s.responseKey).bind (catalog.type? ·.target) with
        | some target => GivenValue.ofTests catalog target s ++
            GivenValue.ofSelections catalog target s.selections s.selections
        | none => []
      | .computed _ (.object target) =>
        match catalog.type? target with
        | some target => GivenValue.ofSelections catalog target s.selections s.selections
        | none => []
      | _ => [] := by
  cases s
  rw [GivenValue.ofSelection, if_neg hname, hfield, Option.map_some]
  cases field.kind with
  | computed _ returns => cases returns <;> rfl
  | _ => rfl

mutual

theorem project_handsOver {type : NodeType} {siblings : List Selection} {node : String}
    {plan : Plan}
    (hshown : plan.Shows type siblings)
    (s : Selection) {d d' : Draft} {item : Item}
    (h : s.project setting type node plan d = .ok (item, d'))
    (hfinal : d'.parameters.Extends final) (scope : Scope) :
    List.Forall₂ (HandedOver setting.catalog final)
      (GivenValue.ofSelection setting.catalog type siblings s) (item.uses scope) := by
  have hsize := sizeOf_selections_lt s
  by_cases hname : s.name = typeNameField ∨ s.name = Argument.nodeId
  · rw [project_internal hname h]
    cases s
    rw [GivenValue.ofSelection, if_pos hname]
    exact .nil
  cases project_cases h with
  | typeName htypeName => exact (hname (.inl htypeName)).elim
  | nodeId hnodeId => exact (hname (.inr hnodeId)).elim
  | shorthand hfield hkind | property hfield hkind | compound hfield hkind =>
      rw [ofSelection_field hname hfield, hkind]
      exact .nil
  | @related field relation step query _ _ hfield hkind hstep hquery =>
      have hincoming : ∀ incoming ∈ some step.incoming,
          incoming.relation.target = step.typeName := by
        rintro _ ⟨⟩
        exact (hshown hstep).2.symm
      obtain ⟨target, htarget, hhanded⟩ := readWith_handsOver hincoming hquery hfinal
        (fun hitems => (projectAll_supplies s.selections hitems).toExtends)
        (fun hshown hitems hkeeps => projectAll_handsOver hshown s.selections hitems hkeeps) scope
      rw [ofSelection_field hname hfield, hkind]
      obtain ⟨hrelation, htyped⟩ := hshown hstep
      rw [htyped] at htarget
      simp only [hrelation, Option.bind_some, htarget]
      rw [Item.uses]
      exact hhanded
  | @computed field statement returns call _ _ hfield hkind hleaf hcall =>
      rw [ofSelection_field hname hfield, hkind]
      cases returns with
      | object target =>
          obtain hempty | hother := hleaf
          · dsimp only
            rw [List.isEmpty_iff.mp hempty]
            cases setting.catalog.type? target with
            | none => exact .nil
            | some found =>
                simp only [GivenValue.ofSelections]
                exact .nil
          · exact (hother target rfl).elim
      | _ => exact .nil
  | @computedNodes field statement target targetType call inner items _ e f _ hfield hkind hleaf
      hcall htarget hplan hitems =>
      obtain ⟨hmake, -⟩ := planSelections_cases hplan
      rw [ofSelection_field hname hfield, hkind]
      simp only [htarget]
      rw [Item.uses]
      exact projectAll_handsOver (Plan.make_shows htarget hmake) s.selections hitems
        hfinal _
termination_by sizeOf s

theorem projectAll_handsOver {type : NodeType} {siblings : List Selection} {node : String}
    {plan : Plan}
    (hshown : plan.Shows type siblings)
    (selections : List Selection) {d d' : Draft} {items : List Item}
    (h : projectAll setting type node plan selections d = .ok (items, d'))
    (hfinal : d'.parameters.Extends final) (scope : Scope) :
    List.Forall₂ (HandedOver setting.catalog final)
      (GivenValue.ofSelections setting.catalog type siblings selections)
      (Item.usesOfAll scope items) := by
  match selections, h with
  | [], h =>
      cases projectAll_nil_eq_ok.mp h
      rw [GivenValue.ofSelections]
      exact .nil
  | s :: rest, h =>
      obtain ⟨item, more, e, hitem, hmore, rfl⟩ := projectAll_cons_cases h
      have hkeeps := (projectAll_supplies rest hmore).toExtends
      rw [GivenValue.ofSelections, Item.usesOfAll]
      exact List.rel_append (project_handsOver hshown s hitem (hkeeps.trans hfinal) scope)
        (projectAll_handsOver hshown rest hmore hfinal scope)
termination_by sizeOf selections

end

theorem readQuery_handsOver {query : ReadQuery}
    (hincoming : ∀ incoming ∈ root.incoming, incoming.relation.target = root.typeName)
    (h : s.readQuery setting root path d = .ok (query, d')) (hfinal : d'.parameters.Extends final)
    (scope : Scope) :
    ∃ type, setting.catalog.type? root.typeName = some type ∧
      List.Forall₂ (HandedOver setting.catalog final)
        (GivenValue.ofTests setting.catalog type s ++
          GivenValue.ofSelections setting.catalog type s.selections s.selections)
        (query.uses scope) :=
  readWith_handsOver hincoming h hfinal
    (fun hitems => (projectAll_supplies s.selections hitems).toExtends)
    (fun hshown hitems hkeeps => projectAll_handsOver hshown s.selections hitems hkeeps) scope

theorem countQuery_handsOver {type : NodeType} (htype : setting.catalog.type? type.name = some type)
    {query : CountQuery} (h : s.countQuery setting type d = .ok (query, d'))
    (hfinal : d'.parameters.Extends final) (scope : Scope) :
    List.Forall₂ (HandedOver setting.catalog final) (GivenValue.ofTests setting.catalog type s)
      (query.source.uses scope) := by
  obtain ⟨search, e, groupBy, read, source, -, -, hread, hsource, rfl⟩ := countQuery_cases h
  exact planRead_handsOver htype (by simp) hread hfinal hsource scope

end Selection

end CypherCompiler
