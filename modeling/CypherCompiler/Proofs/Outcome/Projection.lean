import CypherCompiler.Compilation.Projection
import CypherCompiler.Proofs.Outcome.Filter

namespace CypherCompiler

open Cypher

namespace Selection

variable {s : Selection} {setting : Setting} {root : Root} {path : ParameterPath}
  {d d' : Draft} {ps qs : Parameters}

-- Recursion on a selection goes down through its sub-selections.
theorem sizeOf_selections_lt (s : Selection) : sizeOf s.selections < sizeOf s := by
  cases s with
  | mk name aliasName arguments selections =>
      simp only [mk.sizeOf_spec]
      omega

-- The score column of a search is named after the root, which is bound first.
def scoreName (aliases : AliasRegistry) (root : String) : String :=
  (aliases.reserve root).fresh (Alias.child root "score")

theorem searchCall_cases {type : NodeType} {search : Option SearchCall}
    (h : s.searchCall root type path d = .ok (search, d')) :
    (s.argument? Argument.search = none ∧ search = none ∧ d' = d) ∨
    ∃ index v, s.argument? Argument.search = some v ∧
      (path.child Argument.search).name ∉ d.parameters.names ∧
      search = some ⟨index, (path.child Argument.search).name, root.node,
        scoreName d.aliases root.node⟩ ∧
      d' = ⟨(d.aliases.reserve root.node).reserve (scoreName d.aliases root.node),
        ⟨d.parameters.members ++ [((path.child Argument.search).name, v)]⟩⟩ := by
  unfold searchCall at h
  cases hv : s.argument? Argument.search with
  | none =>
      rw [hv] at h
      cases pure_eq_ok.mp h
      exact .inl ⟨rfl, rfl, rfl⟩
  | some v =>
      simp only [hv] at h
      cases hindex : type.searchIndex? with
      | none =>
          simp only [hindex] at h
          exact (throw_eq_ok.mp h).elim
      | some index =>
          cases hincoming : root.incoming with
          | some incoming =>
              simp only [hindex, hincoming] at h
              exact (throw_eq_ok.mp h).elim
          | none =>
              cases v with
              | str text =>
                  simp only [hindex, hincoming, bind_eq_ok, pure_eq_ok, Drafting.value_eq_ok,
                    Drafting.reserve_eq_ok, Drafting.claim_eq_ok] at h
                  obtain ⟨_, _, ⟨hn, hp⟩, _, _, hreserve, _, _, hclaim, hr⟩ := h
                  cases hp
                  cases hreserve
                  cases hclaim
                  cases hr
                  exact .inr ⟨index, _, rfl, hn, rfl, rfl⟩
              | _ =>
                  simp only [hindex, hincoming] at h
                  exact (throw_eq_ok.mp h).elim

theorem planRead_cases {catalog : Catalog} {strict : Bool} {selections : List Selection}
    {groupBy : Option String} {read : ReadPlan}
    (h : s.planRead catalog strict root path selections groupBy d = .ok (read, d')) :
    ∃ type, catalog.type? root.typeName = some type ∧
      Predicate.ofSelection catalog type path strict s d.parameters =
        .ok (read.predicate, d'.parameters) ∧
      Plan.make catalog root selections groupBy read.predicate d.aliases =
        .ok (read.plan, d'.aliases) := by
  unfold planRead at h
  simp only [bind_eq_ok, lift_eq_ok, pure_eq_ok, Catalog.require_eq_ok, Drafting.hoist_eq_ok,
    Drafting.plan_eq_ok] at h
  obtain ⟨type, _, ⟨_, htype, ht⟩, predicate, _, ⟨_, ps, hpredicate, hp⟩, plan, _,
    ⟨_, aliases, hplan, hq⟩, hr⟩ := h
  cases ht
  cases hp
  cases hq
  cases hr
  exact ⟨_, htype, hpredicate, hplan⟩

theorem readHead_cases {head : ReadHead} (h : s.readHead setting root path d = .ok (head, d')) :
    ∃ search e read, setting.catalog.type? root.typeName = some head.type ∧
      s.searchCall root head.type path d = .ok (search, e) ∧
      s.planRead setting.catalog setting.strictArguments root path s.selections none e =
        .ok (read, d') ∧
      head.plan = read.plan ∧
      read.plan.source head.type read.predicate search = .ok head.source ∧
      head.score = search.map SearchCall.score := by
  unfold readHead at h
  simp only [bind_eq_ok, lift_eq_ok, pure_eq_ok, Catalog.require_eq_ok] at h
  obtain ⟨type, _, ⟨_, htype, ht⟩, search, e, hsearch, read, _, hread, source, _,
    ⟨_, hsource, hs⟩, hr⟩ := h
  cases ht
  cases hs
  cases hr
  exact ⟨search, e, read, htype, hsearch, hread, rfl, hsource, rfl⟩

-- A bound that is not written takes nothing out of the request.
private theorem bound_cases {c : Prop} [Decidable c] {v : Json}
    {f : Option String → Hoist Window} {r : Window × Parameters}
    (h : (if c then some <$> Hoist.value path v >>= f else pure none >>= f) ps = .ok r) :
    ∃ bound ms, f bound ms = .ok r ∧ ((bound = none ∧ ms = ps) ∨
      ∃ name, bound = some name ∧ Hoist.value path v ps = .ok (name, ms)) := by
  split at h
  · rw [map_eq_pure_bind] at h
    simp only [bind_eq_ok, pure_eq_ok] at h
    obtain ⟨_, _, ⟨name, _, hv, hn⟩, h⟩ := h
    cases hn
    exact ⟨some name, _, h, .inr ⟨name, rfl, hv⟩⟩
  · rw [bind_eq_ok] at h
    obtain ⟨_, _, hn, h⟩ := h
    cases pure_eq_ok.mp hn
    exact ⟨none, ps, h, .inl ⟨rfl, rfl⟩⟩

-- Bounds are taken out in the order in which they are written.
theorem window_cases {w : Window} (h : s.window path ps = .ok (w, qs)) :
    ∃ p ms, Pagination.ofSelection s = .ok p ∧
      ((w.skip = none ∧ ms = ps) ∨ ∃ name, w.skip = some name ∧
        Hoist.value (path.child Argument.offset) (.ofInt p.offset) ps = .ok (name, ms)) ∧
      ((w.limit = none ∧ qs = ms) ∨ ∃ name, w.limit = some name ∧
        Hoist.value (path.child Argument.first) (.ofInt p.first) ms = .ok (name, qs)) := by
  unfold window at h
  simp only [bind_eq_ok, lift_eq_ok] at h
  obtain ⟨p, _, ⟨_, hp, hr⟩, h⟩ := h
  cases hr
  obtain ⟨skip, ms, h, hskip⟩ := bound_cases h
  obtain ⟨limit, ls, h, hlimit⟩ := bound_cases h
  cases pure_eq_ok.mp h
  exact ⟨_, ms, hp, hskip, hlimit⟩

theorem bindArguments_nil_eq_ok {referenced : List String} {arguments : Json.Members}
    {r : List (String × Binding) × Draft} :
    Field.bindArguments referenced arguments path [] d = .ok r ↔ ([], d) = r := by
  rw [Field.bindArguments]
  exact pure_eq_ok

-- A declared argument is bound to its value, or to null, or not at all.
theorem bindArguments_cons_cases {referenced rest : List String} {name : String}
    {arguments : Json.Members} {bindings : List (String × Binding)}
    (h : Field.bindArguments referenced arguments path (name :: rest) d = .ok (bindings, d')) :
    ∃ more, (∃ v e, arguments.get? name = some v ∧
        Drafting.value (path.child name) v d = .ok ((path.child name).name, e) ∧
        Field.bindArguments referenced arguments path rest e = .ok (more, d') ∧
        bindings = (name, .parameter (path.child name).name) :: more) ∨
      (arguments.get? name = none ∧
        Field.bindArguments referenced arguments path rest d = .ok (more, d') ∧
        bindings = (if referenced.contains name then [(name, Binding.null)] else []) ++ more) := by
  rw [Field.bindArguments] at h
  cases hv : arguments.get? name with
  | none =>
      simp only [hv, bind_eq_ok, pure_eq_ok] at h
      obtain ⟨_, _, hb, more, _, hmore, hr⟩ := h
      cases hb
      cases hr
      exact ⟨more, .inr ⟨rfl, hmore, rfl⟩⟩
  | some v =>
      simp only [hv, bind_eq_ok, pure_eq_ok] at h
      obtain ⟨p, e, hp, _, _, hb, more, _, hmore, hr⟩ := h
      cases hb
      cases hr
      obtain ⟨_, hq⟩ := Drafting.value_eq_ok.mp hp
      cases hq
      exact ⟨more, .inl ⟨v, _, rfl, hp, hmore, rfl⟩⟩

theorem customCall_cases {field : Field} {statement node : String} {call : CustomCall}
    (h : s.customCall setting field statement node d = .ok (call, d')) :
    ∃ ambient arguments e,
      (((Text.references statement).contains cypherParamsName = true ∧
          ambient = [(cypherParamsName, Binding.parameter cypherParamsName)] ∧
          e = { d with parameters :=
            d.parameters.share cypherParamsName (.obj setting.cypherParams) }) ∨
        ((Text.references statement).contains cypherParamsName = false ∧ ambient = [] ∧ e = d)) ∧
      (setting.strictArguments = true → field.undeclared? s.arguments = none) ∧
      Field.bindArguments (Text.references statement) s.arguments
        ((ParameterPath.below node).child s.responseKey) field.arguments e =
          .ok (arguments, d') ∧
      call = ⟨statement, ("this", .node node) :: ambient ++ arguments⟩ := by
  unfold customCall at h
  have hdeclared : setting.strictArguments = true → field.undeclared? s.arguments = none := by
    intro hs
    cases hu : field.undeclared? s.arguments with
    | none => rfl
    | some name =>
        by_cases hr : (Text.references statement).contains cypherParamsName = true <;>
          simp only [hr, hs, hu, ite_true, Bool.false_eq_true, ite_false, bind_eq_ok, pure_eq_ok,
            throw_eq_ok, false_and, and_false, exists_false] at h
  have hplain : (do
      let ambient ← if (Text.references statement).contains cypherParamsName then do
          Drafting.share cypherParamsName (.obj setting.cypherParams)
          pure [(cypherParamsName, Binding.parameter cypherParamsName)]
        else pure []
      let arguments ← Field.bindArguments (Text.references statement) s.arguments
        ((ParameterPath.below node).child s.responseKey) field.arguments
      return CustomCall.mk statement (("this", Binding.node node) :: ambient ++ arguments)) d =
        .ok (call, d') := by
    by_cases hs : setting.strictArguments = true
    · simpa only [hs, hdeclared hs, ite_true] using h
    · simpa only [hs, ite_false, Bool.false_eq_true] using h
  by_cases hr : (Text.references statement).contains cypherParamsName = true
  · simp only [hr, ite_true, bind_eq_ok, pure_eq_ok, Drafting.share_eq_ok] at hplain
    obtain ⟨_, _, hshare, _, _, hambient, arguments, _, harguments, hcall⟩ := hplain
    cases hshare
    cases hambient
    cases hcall
    exact ⟨_, arguments, _, .inl ⟨hr, rfl, rfl⟩, hdeclared, harguments, rfl⟩
  · simp only [hr, Bool.false_eq_true, ite_false, bind_eq_ok, pure_eq_ok] at hplain
    obtain ⟨_, _, hambient, arguments, _, harguments, hcall⟩ := hplain
    cases hambient
    cases hcall
    exact ⟨_, arguments, _, .inr ⟨by simpa using hr, rfl, rfl⟩, hdeclared, harguments, rfl⟩

theorem readWith_cases {project : NodeType → Plan → Drafting (List Item)} {query : ReadQuery}
    (h : s.readWith setting root path project d = .ok (query, d')) :
    ∃ head e f items order window,
      s.readHead setting root path d = .ok (head, e) ∧
      project head.type head.plan e = .ok (items, f) ∧
      s.orderTerms head.type root.node head.score = .ok order ∧
      s.window path f.parameters = .ok (window, d'.parameters) ∧ d'.aliases = f.aliases ∧
      query = ⟨head.source, root.node, items, s.responseKey, order, window⟩ := by
  unfold readWith at h
  simp only [bind_eq_ok, lift_eq_ok, pure_eq_ok, Drafting.hoist_eq_ok] at h
  obtain ⟨head, e, hhead, items, f, hitems, order, _, ⟨_, horder, ho⟩, window, _,
    ⟨_, _, hwindow, hw⟩, hr⟩ := h
  cases ho
  cases hw
  cases hr
  exact ⟨head, e, _, items, order, window, hhead, hitems, horder, hwindow, rfl, rfl⟩

theorem planSelections_cases {catalog : Catalog} {node typeName : String}
    {selections : List Selection} {plan : Plan}
    (h : planSelections catalog node typeName selections d = .ok (plan, d')) :
    Plan.make catalog ⟨node, typeName, none⟩ selections none (.all []) d.aliases =
      .ok (plan, d'.aliases) ∧ d'.parameters = d.parameters := by
  unfold planSelections at h
  rw [Drafting.plan_eq_ok] at h
  obtain ⟨p, aliases, hplan, hr⟩ := h
  cases hr
  exact ⟨hplan, rfl⟩

-- The ways in which a selected field becomes an entry of the map of the node `node`.
inductive ProjectOutcome (setting : Setting) (type : NodeType) (node : String) (plan : Plan)
    (s : Selection) : Draft → Item → Draft → Prop
  | typeName {d : Draft} (hname : s.name = typeNameField) :
      ProjectOutcome setting type node plan s d (.typeName s.responseKey type.name) d
  | nodeId {d : Draft} (hname : s.name = Argument.nodeId) :
      ProjectOutcome setting type node plan s d (.nodeId s.responseKey node) d
  | shorthand {field scalar} {d : Draft} (hfield : type.field? s.name = some field)
      (hkind : field.kind = .scalar scalar) (halias : s.aliasName = none) :
      ProjectOutcome setting type node plan s d (.shorthand field.name) d
  | property {field scalar} {d : Draft} (hfield : type.field? s.name = some field)
      (hkind : field.kind = .scalar scalar) (halias : s.aliasName ≠ none) :
      ProjectOutcome setting type node plan s d (.property s.responseKey node field.name) d
  | compound {field compound parts} {d : Draft} (hfield : type.field? s.name = some field)
      (hkind : field.kind = .compound compound) (hparts : s.parts compound = .ok parts) :
      ProjectOutcome setting type node plan s d (.compound s.responseKey node field.name parts) d
  | related {field relation step query} {d d' : Draft}
      (hfield : type.field? s.name = some field) (hkind : field.kind = .relationship relation)
      (hstep : plan.selectionStep? s.responseKey = some step)
      (hquery : s.readWith setting ⟨step.node, step.typeName, some step.incoming⟩
        (.below step.node) (fun target inner =>
          Selection.projectAll setting target step.node inner s.selections) d =
            .ok (query, d')) :
      ProjectOutcome setting type node plan s d (.related s.responseKey field.list query) d'
  | computed {field statement returns call} {d d' : Draft}
      (hfield : type.field? s.name = some field) (hkind : field.kind = .computed statement returns)
      (hshown : s.isLeaf = true ∨ ∀ target, returns ≠ .object target)
      (hcall : s.customCall setting field statement node d = .ok (call, d')) :
      ProjectOutcome setting type node plan s d (.computed s.responseKey field.list call) d'
  | computedNodes {field statement target targetType call inner items} {d e f d' : Draft}
      (hfield : type.field? s.name = some field)
      (hkind : field.kind = .computed statement (.object target)) (hshown : s.isLeaf = false)
      (hcall : s.customCall setting field statement node d = .ok (call, e))
      (htarget : setting.catalog.type? target = some targetType)
      (hplan : planSelections setting.catalog (e.aliases.fresh (Alias.child node s.responseKey))
        target s.selections
        ⟨e.aliases.reserve (e.aliases.fresh (Alias.child node s.responseKey)), e.parameters⟩ =
          .ok (inner, f))
      (hitems : Selection.projectAll setting targetType
        (e.aliases.fresh (Alias.child node s.responseKey)) inner s.selections f =
          .ok (items, d')) :
      ProjectOutcome setting type node plan s d (.computedNodes s.responseKey field.list
        (e.aliases.fresh (Alias.child node s.responseKey)) call items) d'

theorem project_cases {type : NodeType} {node : String} {plan : Plan} {item : Item}
    (h : s.project setting type node plan d = .ok (item, d')) :
    ProjectOutcome setting type node plan s d item d' := by
  cases s with
  | mk name aliasName arguments selections =>
      rw [project] at h
      split at h
      · rename_i hname
        cases pure_eq_ok.mp h
        exact .typeName hname
      · split at h
        · rename_i hname
          cases pure_eq_ok.mp h
          exact .nodeId hname
        · cases hfield : type.field? name with
          | none =>
              rw [hfield] at h
              exact (throw_eq_ok.mp h).elim
          | some field =>
              simp only [hfield] at h
              cases hkind : field.kind with
              | scalar scalar =>
                  simp only [hkind] at h
                  split at h
                  · rename_i halias
                    cases pure_eq_ok.mp h
                    exact .shorthand hfield hkind (Option.isNone_iff_eq_none.mp halias)
                  · rename_i halias
                    cases pure_eq_ok.mp h
                    exact .property hfield hkind (mt Option.isNone_iff_eq_none.mpr halias)
              | compound compound =>
                  simp only [hkind, bind_eq_ok, lift_eq_ok, pure_eq_ok] at h
                  obtain ⟨parts, _, ⟨_, hparts, hp⟩, hr⟩ := h
                  cases hp
                  cases hr
                  exact .compound hfield hkind hparts
              | relationship relation =>
                  simp only [hkind] at h
                  cases hstep : plan.selectionStep?
                      (responseKey ⟨name, aliasName, arguments, selections⟩) with
                  | none =>
                      simp only [hstep] at h
                      exact (throw_eq_ok.mp h).elim
                  | some step =>
                      simp only [hstep, bind_eq_ok, pure_eq_ok] at h
                      obtain ⟨query, _, hquery, hr⟩ := h
                      cases hr
                      exact .related hfield hkind hstep hquery
              | computed statement returns =>
                  simp only [hkind] at h
                  rw [bind_eq_ok] at h
                  obtain ⟨call, e, hcall, h⟩ := h
                  cases returns with
                  | object target =>
                      simp only at h
                      split at h
                      · rename_i hleaf
                        cases pure_eq_ok.mp h
                        exact .computed hfield hkind (.inl hleaf) hcall
                      · rename_i hleaf
                        simp only [bind_eq_ok, lift_eq_ok, pure_eq_ok, Drafting.claim_eq_ok,
                          Catalog.require_eq_ok] at h
                        obtain ⟨_, _, hclaim, targetType, _, ⟨_, htarget, ht⟩, inner, f, hplan,
                          items, _, hitems, hr⟩ := h
                        cases hclaim
                        cases ht
                        cases hr
                        exact .computedNodes hfield hkind (by simpa [isLeaf] using hleaf) hcall
                          htarget hplan hitems
                  | _ =>
                      cases pure_eq_ok.mp h
                      exact .computed hfield hkind (.inr nofun) hcall

theorem projectAll_nil_eq_ok {type : NodeType} {node : String} {plan : Plan}
    {r : List Item × Draft} :
    projectAll setting type node plan [] d = .ok r ↔ ([], d) = r := by
  rw [projectAll]
  exact pure_eq_ok

theorem projectAll_cons_cases {type : NodeType} {node : String} {plan : Plan}
    {rest : List Selection} {items : List Item}
    (h : projectAll setting type node plan (s :: rest) d = .ok (items, d')) :
    ∃ item more e, s.project setting type node plan d = .ok (item, e) ∧
      projectAll setting type node plan rest e = .ok (more, d') ∧ items = item :: more := by
  rw [projectAll] at h
  simp only [bind_eq_ok, pure_eq_ok] at h
  obtain ⟨item, e, hitem, more, _, hmore, hr⟩ := h
  cases hr
  exact ⟨item, more, e, hitem, hmore, rfl⟩

theorem countQuery_cases {type : NodeType} {query : CountQuery}
    (h : s.countQuery setting type d = .ok (query, d')) :
    ∃ search e groupBy read source,
      s.searchCall ⟨Alias.root type.name, type.name, none⟩ type .root d = .ok (search, e) ∧
      s.groupByPath = .ok groupBy ∧
      s.planRead setting.catalog setting.strictArguments
        ⟨Alias.root type.name, type.name, none⟩ .root [] groupBy e = .ok (read, d') ∧
      read.plan.source type read.predicate search = .ok source ∧
      query = ⟨source, Alias.root type.name,
        read.plan.groupKey.map fun key => (key.node, key.field), s.responseKey⟩ := by
  unfold countQuery at h
  simp only [bind_eq_ok, lift_eq_ok, pure_eq_ok] at h
  obtain ⟨search, e, hsearch, groupBy, _, ⟨_, hgroup, hg⟩, read, _, hread, source, _,
    ⟨_, hsource, hs⟩, hr⟩ := h
  cases hg
  cases hs
  cases hr
  exact ⟨search, _, groupBy, read, source, hsearch, hgroup, hread, hsource, rfl⟩

end Selection

end CypherCompiler
