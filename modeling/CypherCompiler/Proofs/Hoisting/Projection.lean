import CypherCompiler.Proofs.Hoisting.Filter
import CypherCompiler.Proofs.Outcome.Planning
import CypherCompiler.Proofs.Outcome.Projection
import CypherCompiler.Proofs.Outcome.Source
import CypherCompiler.Proofs.Selection.Nodes
import CypherCompiler.Proofs.Traversal.Selected

namespace CypherCompiler

open Cypher Text

namespace Selection

-- Every response alias below a field can stand without quotes.
def HavePlainAliases (nodes : List Selection) : Prop :=
  ∀ s ∈ nodes, ∀ a ∈ s.aliasName, isPlainIdentifier a = true

theorem havePlainAliases_cons {s : Selection} {rest : List Selection}
    (h : HavePlainAliases (nodesOfAll (s :: rest))) :
    HavePlainAliases s.nodes ∧ HavePlainAliases (nodesOfAll rest) := by
  rw [nodesOfAll] at h
  exact ⟨fun t ht => h t (List.mem_append_left _ ht), fun t ht => h t (List.mem_append_right _ ht)⟩

theorem HavePlainAliases.selections {s : Selection} (h : HavePlainAliases s.nodes) :
    HavePlainAliases (nodesOfAll s.selections) :=
  fun t ht => h t (nodesOfAll_selections_subset s ht)

theorem HavePlainAliases.aliasName {s : Selection} (h : HavePlainAliases s.nodes) :
    ∀ a ∈ s.aliasName, isPlainIdentifier a = true :=
  h s (mem_nodes_self s)

theorem HavePlainAliases.mem {selections : List Selection}
    (h : HavePlainAliases (nodesOfAll selections)) {s : Selection} (hs : s ∈ selections) :
    HavePlainAliases s.nodes :=
  fun t ht => h t (nodes_subset_nodesOfAll hs ht)

theorem HavePlainAliases.isWord_responseKey {s : Selection} (h : HavePlainAliases s.nodes)
    {type : NodeType} (htype : type.HasPlainNames) {field : Field}
    (hfield : type.field? s.name = some field) : IsWord s.responseKey := by
  unfold responseKey
  cases ha : s.aliasName with
  | none => exact htype.isWord hfield
  | some a => exact isWord_of_isPlainIdentifier (h.aliasName a ha)

end Selection

open Selection

-- The nodes of selected relationships have names that are read to their end.
theorem Plan.make_isWord {catalog : Catalog} (hcatalog : catalog.HasPlainNames) {root : Root}
    (hroot : IsWord root.node) {selections : List Selection}
    (hselections : HavePlainAliases (nodesOfAll selections)) {groupBy : Option String}
    {predicate : Predicate} {aliases aliases' : AliasRegistry} {plan : Plan}
    (h : Plan.make catalog root selections groupBy predicate aliases = .ok (plan, aliases')) :
    ∀ s ∈ plan.steps, s.origin.has .selection = true → IsWord s.node := by
  intro s hs horigin
  obtain ⟨type, htype, t, ht, field, hfield, -, r, hnode⟩ := make_selected h hs horigin
  have hkey := (hselections.mem ht).isWord_responseKey (hcatalog.type htype) hfield
  rw [hnode]
  exact AliasRegistry.isWord_fresh (Alias.isWord_child hroot hkey) r

-- The entries of the node `node` are planned without anything being taken out.
theorem planSelections_isWord {catalog : Catalog} (hcatalog : catalog.HasPlainNames)
    {node typeName : String} (hnode : IsWord node) {selections : List Selection}
    (hselections : HavePlainAliases (nodesOfAll selections)) {plan : Plan} {d d' : Draft}
    (h : planSelections catalog node typeName selections d = .ok (plan, d')) :
    (∀ s ∈ plan.steps, s.origin.has .selection = true → IsWord s.node) ∧
      d'.parameters = d.parameters := by
  obtain ⟨hmake, hparameters⟩ := planSelections_cases h
  have hroot : IsWord (⟨node, typeName, none⟩ : Root).node := hnode
  exact ⟨Plan.make_isWord hcatalog hroot hselections hmake, hparameters⟩

theorem Plan.selectionStep?_isWord {plan : Plan}
    (hplan : ∀ s ∈ plan.steps, s.origin.has .selection = true → IsWord s.node) {key : String}
    {step : Step} (h : plan.selectionStep? key = some step) : IsWord step.node := by
  have hfound := List.find?_some h
  simp only [Bool.and_eq_true] at hfound
  exact hplan step (List.mem_of_find?_eq_some h) hfound.2

namespace Selection

variable {s : Selection} {setting : Setting} {root : Root} {path : ParameterPath} {d d' : Draft}

-- A source refers to what its search and its condition were given.
theorem references_source {plan : Plan} {type : NodeType} {predicate : Predicate}
    {search : Option SearchCall} {source : Source}
    (h : plan.source type predicate search = .ok source) :
    source.references = (search.map SearchCall.parameter).toList ++ predicate.references := by
  obtain ⟨hsearch, -, hconditions⟩ := Plan.source_eq_ok h
  obtain ⟨stated, hall, hstated⟩ := Plan.sourceConditions_eq_ok hconditions
  have hrequired : ∀ steps : List Step, Condition.referencesOfAll
      (steps.map (Condition.leadsSomewhere ∘ Step.hop)) = [] := by
    intro steps
    induction steps with
    | nil => rfl
    | cons step rest ih => exact ih
  rw [Source.references, hsearch, hall, Condition.referencesOfAll_append, hrequired,
    List.append_nil]
  obtain ⟨rfl, rfl⟩ | ⟨c, hc, rfl⟩ := hstated
  · rfl
  · rw [Condition.referencesOfAll, Condition.referencesOfAll, List.append_nil,
      plan.references_condition predicate c hc]

theorem searchCall_hoisted {type : NodeType} (hpath : path.IsPlain) {search : Option SearchCall}
    (h : s.searchCall root type path d = .ok (search, d')) :
    Hoisted d.parameters d'.parameters (search.map SearchCall.parameter).toList := by
  obtain ⟨-, rfl, rfl⟩ | ⟨index, v, -, -, rfl, rfl⟩ := searchCall_cases h
  · exact .refl _
  · exact .insert (hpath.child (isWord_of_all (by decide))).isWord_name

theorem planRead_hoisted {catalog : Catalog} (hcatalog : catalog.HasPlainNames) {strict : Bool}
    (hpath : path.IsPlain) {selections : List Selection} {groupBy : Option String}
    {read : ReadPlan}
    (h : s.planRead catalog strict root path selections groupBy d = .ok (read, d')) :
    Hoisted d.parameters d'.parameters read.predicate.references := by
  obtain ⟨type, htype, hpredicate, -⟩ := planRead_cases h
  exact Predicate.ofSelection_hoisted hcatalog (hcatalog.type htype) hpath hpredicate

theorem readHead_hoisted (hcatalog : setting.catalog.HasPlainNames) (hpath : path.IsPlain)
    {head : ReadHead} (h : s.readHead setting root path d = .ok (head, d')) :
    Hoisted d.parameters d'.parameters head.source.references := by
  obtain ⟨search, e, read, -, hsearch, hread, -, hsource, -⟩ := readHead_cases h
  rw [references_source hsource]
  exact (searchCall_hoisted hpath hsearch).trans (planRead_hoisted hcatalog hpath hread)

theorem bound_hoisted (hpath : path.IsPlain) {segment : String} (hsegment : IsWord segment)
    {bound : Option String} {v : Json} {ps qs : Parameters}
    (h : (bound = none ∧ qs = ps) ∨
      ∃ name, bound = some name ∧ Hoist.value (path.child segment) v ps = .ok (name, qs)) :
    Hoisted ps qs bound.toList := by
  obtain ⟨rfl, rfl⟩ | ⟨name, rfl, hv⟩ := h
  · exact .refl _
  · obtain ⟨-, hr⟩ := Hoist.value_eq_ok.mp hv
    cases hr
    exact .insert (hpath.child hsegment).isWord_name

theorem window_hoisted (hpath : path.IsPlain) {ps qs : Parameters} {w : Window}
    (h : s.window path ps = .ok (w, qs)) : Hoisted ps qs w.references := by
  obtain ⟨p, ms, -, hskip, hlimit⟩ := window_cases h
  have hfirst : Hoisted ps ms w.skip.toList :=
    bound_hoisted hpath (isWord_of_all (by decide)) hskip
  have hsecond : Hoisted ms qs w.limit.toList :=
    bound_hoisted hpath (isWord_of_all (by decide)) hlimit
  exact hfirst.trans hsecond

theorem bindArguments_hoisted (hpath : path.IsPlain) {referenced declared : List String}
    (hdeclared : AreWords declared) {arguments : Json.Members}
    {bindings : List (String × Binding)}
    (h : Field.bindArguments referenced arguments path declared d = .ok (bindings, d')) :
    Hoisted d.parameters d'.parameters (bindings.flatMap fun b => b.2.references) := by
  induction declared generalizing d bindings with
  | nil =>
      cases bindArguments_nil_eq_ok.mp h
      exact .refl _
  | cons name rest ih =>
      have hrest : AreWords rest := fun n hn => hdeclared n (List.mem_cons_of_mem name hn)
      obtain ⟨more, ⟨v, e, -, hv, hmore, rfl⟩ | ⟨-, hmore, rfl⟩⟩ := bindArguments_cons_cases h
      · obtain ⟨-, hr⟩ := Drafting.value_eq_ok.mp hv
        cases hr
        have hname := hdeclared name List.mem_cons_self
        exact (Hoisted.insert (hpath.child hname).isWord_name).trans (ih hrest hmore)
      · rw [List.flatMap_append]
        by_cases hreferenced : referenced.contains name = true
        · rw [if_pos hreferenced]
          exact ih hrest hmore
        · rw [if_neg hreferenced]
          exact ih hrest hmore

theorem isWord_cypherParamsName : IsWord cypherParamsName :=
  isWord_of_all (by decide)

theorem customCall_hoisted {field : Field} (harguments : AreWords field.arguments)
    (hkey : IsWord s.responseKey) {statement node : String} (hnode : IsWord node)
    {call : CustomCall} (h : s.customCall setting field statement node d = .ok (call, d')) :
    Hoisted d.parameters d'.parameters call.references := by
  obtain ⟨ambient, arguments, e, hambient, -, hbind, rfl⟩ := customCall_cases h
  have hshared : Hoisted d.parameters e.parameters (ambient.flatMap fun b => b.2.references) := by
    obtain ⟨-, rfl, rfl⟩ | ⟨-, rfl, rfl⟩ := hambient
    · exact .share isWord_cypherParamsName
    · exact .refl _
  have hbound := bindArguments_hoisted ((ParameterPath.isPlain_below hnode).child hkey) harguments
    hbind
  rw [CustomCall.references, List.cons_append, List.flatMap_cons, List.flatMap_append]
  exact hshared.trans hbound

-- The sub-fields that a compound value shows are words.
theorem parts_areWords {compound : Compound} {parts : List Part}
    (h : s.parts compound = .ok parts) : AreWords (parts.flatMap Part.constituents) := by
  have hconstituents : AreWords compound.constituents := by
    intro name hname
    have hall : compound.constituents.all (·.toList.all isIdentifierRest) = true := by
      cases compound <;> decide
    exact isWord_of_all (List.all_eq_true.mp hall name hname)
  rw [areWords_flatMap]
  unfold Selection.parts at h
  by_cases hleaf : s.isLeaf = true
  · rw [if_pos hleaf] at h
    cases h
    intro part hpart
    obtain ⟨name, hname, rfl⟩ := List.mem_map.mp hpart
    simpa [AreWords, Part.constituents] using hconstituents name hname
  · rw [if_neg hleaf] at h
    generalize s.selections = selections at h
    induction selections generalizing parts with
    | nil =>
        cases h
        simp
    | cons sub rest ih =>
        obtain ⟨part, more, hpart, hmore, rfl⟩ := except_mapM_cons_eq_ok.mp h
        intro b hb
        rcases List.mem_cons.mp hb with rfl | hb
        · split at hpart
          · cases hpart
          · rename_i hsub
            split at hpart
            · cases hpart
              simp [AreWords, Part.constituents]
            · rename_i hformatted
              cases hpart
              have hmem : sub.name ∈ compound.constituents := by
                simpa [Compound.hasSubField, hformatted] using hsub
              simpa [AreWords, Part.constituents] using hconstituents sub.name hmem
        · exact ih hmore b hb

theorem readWith_hoisted (hcatalog : setting.catalog.HasPlainNames) (hpath : path.IsPlain)
    (hroot : IsWord root.node) (haliases : HavePlainAliases (nodesOfAll s.selections))
    {project : NodeType → Plan → Drafting (List Item)} {query : ReadQuery}
    (h : s.readWith setting root path project d = .ok (query, d'))
    (hproject : ∀ {type : NodeType} {plan : Plan} {e f : Draft} {items : List Item},
      type.HasPlainNames → (∀ step ∈ plan.steps, step.origin.has .selection = true →
        IsWord step.node) → project type plan e = .ok (items, f) →
      Hoisted e.parameters f.parameters (Item.referencesOfAll items) ∧
        AreWords (Item.constituentsOfAll items)) :
    Hoisted d.parameters d'.parameters query.references ∧ AreWords query.constituents := by
  obtain ⟨head, e, f, items, order, window, hhead, hitems, -, hwindow, -, rfl⟩ :=
    readWith_cases h
  obtain ⟨search, c, read, htype, -, hread, hplan, -, -⟩ := readHead_cases hhead
  obtain ⟨_, -, -, hmake⟩ := planRead_cases hread
  have hsteps := Plan.make_isWord hcatalog hroot haliases hmake
  rw [← hplan] at hsteps
  obtain ⟨hhoisted, hconstituents⟩ := hproject (hcatalog.type htype) hsteps hitems
  rw [ReadQuery.references, ReadQuery.constituents]
  refine ⟨?_, hconstituents⟩
  exact ((readHead_hoisted hcatalog hpath hhead).trans hhoisted).trans
    (window_hoisted hpath hwindow)

mutual

-- An entry refers to exactly what is taken out for it.
theorem project_hoisted (hcatalog : setting.catalog.HasPlainNames) {type : NodeType}
    (htype : type.HasPlainNames) {node : String} (hnode : IsWord node) {plan : Plan}
    (hplan : ∀ step ∈ plan.steps, step.origin.has .selection = true → IsWord step.node)
    (s : Selection) (haliases : HavePlainAliases s.nodes) {d d' : Draft} {item : Item}
    (h : s.project setting type node plan d = .ok (item, d')) :
    Hoisted d.parameters d'.parameters item.references ∧ AreWords item.constituents := by
  have hsize := sizeOf_selections_lt s
  have hnone : Hoisted d.parameters d.parameters [] ∧ AreWords [] :=
    ⟨.refl _, by simp [AreWords]⟩
  cases project_cases h with
  | typeName => exact hnone
  | nodeId => exact hnone
  | shorthand => exact hnone
  | property => exact hnone
  | compound _ _ hparts => exact ⟨.refl _, parts_areWords hparts⟩
  | related hfield _ hstep hquery =>
      have hstepNode := Plan.selectionStep?_isWord hplan hstep
      rw [Item.references, Item.constituents]
      apply readWith_hoisted hcatalog (ParameterPath.isPlain_below hstepNode) hstepNode
        haliases.selections hquery
      intro target inner e f items htarget hinner hitems
      exact projectAll_hoisted hcatalog htarget hstepNode hinner s.selections
        haliases.selections hitems
  | computed hfield _ _ hcall =>
      have harguments := htype.areWords_arguments hfield
      have hkey := haliases.isWord_responseKey htype hfield
      exact ⟨customCall_hoisted harguments hkey hnode hcall, by simp [AreWords, Item.constituents]⟩
  | @computedNodes _ _ _ _ _ _ _ _ e _ _ hfield _ _ hcall htarget hinner hitems =>
      have harguments := htype.areWords_arguments hfield
      have hkey := haliases.isWord_responseKey htype hfield
      have hitem : IsWord (e.aliases.fresh (Alias.child node s.responseKey)) :=
        AliasRegistry.isWord_fresh (Alias.isWord_child hnode hkey) e.aliases
      obtain ⟨hsteps, hparameters⟩ := planSelections_isWord hcatalog hitem haliases.selections
        hinner
      obtain ⟨hhoisted, hconstituents⟩ := projectAll_hoisted hcatalog (hcatalog.type htarget)
        hitem hsteps s.selections haliases.selections hitems
      rw [hparameters] at hhoisted
      exact ⟨(customCall_hoisted harguments hkey hnode hcall).trans hhoisted, hconstituents⟩
termination_by sizeOf s

theorem projectAll_hoisted (hcatalog : setting.catalog.HasPlainNames) {type : NodeType}
    (htype : type.HasPlainNames) {node : String} (hnode : IsWord node) {plan : Plan}
    (hplan : ∀ step ∈ plan.steps, step.origin.has .selection = true → IsWord step.node)
    (selections : List Selection) (haliases : HavePlainAliases (nodesOfAll selections))
    {d d' : Draft} {items : List Item}
    (h : projectAll setting type node plan selections d = .ok (items, d')) :
    Hoisted d.parameters d'.parameters (Item.referencesOfAll items) ∧
      AreWords (Item.constituentsOfAll items) := by
  match selections, h with
  | [], h =>
      cases projectAll_nil_eq_ok.mp h
      exact ⟨.refl _, by simp [AreWords, Item.constituentsOfAll]⟩
  | s :: rest, h =>
      obtain ⟨hs, hrest⟩ := havePlainAliases_cons haliases
      obtain ⟨item, more, e, hitem, hmore, rfl⟩ := projectAll_cons_cases h
      obtain ⟨hfirst, hconstituents⟩ := project_hoisted hcatalog htype hnode hplan s hs hitem
      obtain ⟨hothers, hmoreConstituents⟩ := projectAll_hoisted hcatalog htype hnode hplan rest
        hrest hmore
      exact ⟨hfirst.trans hothers, areWords_append.mpr ⟨hconstituents, hmoreConstituents⟩⟩
termination_by sizeOf selections

end

end Selection

end CypherCompiler
