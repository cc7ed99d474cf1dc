import CypherCompiler.Proofs.Hoisting.Compilation
import CypherCompiler.Proofs.Spelling.Filter

namespace CypherCompiler

open Cypher Text

namespace Selection

-- The response aliases of selected fields.
def aliases (nodes : List Selection) : List String := nodes.filterMap aliasName

theorem mem_aliases {nodes : List Selection} {s : Selection} (hs : s ∈ nodes) {a : String}
    (ha : s.aliasName = some a) : a ∈ aliases nodes :=
  List.mem_filterMap.mpr ⟨s, hs, ha⟩

theorem aliases_subset {nodes more : List Selection} (h : nodes ⊆ more) :
    aliases nodes ⊆ aliases more := by
  intro a ha
  obtain ⟨s, hs, halias⟩ := List.mem_filterMap.mp ha
  exact mem_aliases (h hs) halias

variable {keys : List String} {s : Selection} {setting : Setting} {root : Root}
  {path : ParameterPath} {d d' : Draft}

-- A response key is the name of a field or an alias.
theorem responseKey_spelled {type : NodeType} (htype : type.HasPlainNames)
    (hkeys : aliases s.nodes ⊆ keys) {field : Field} (hfield : type.field? s.name = some field) :
    IsWord s.responseKey ∨ s.responseKey ∈ keys := by
  unfold responseKey
  cases ha : s.aliasName with
  | none => exact .inl (htype.isWord hfield)
  | some a => exact .inr (hkeys (mem_aliases (mem_nodes_self s) ha))

-- The nodes of selected relationships are named after the root and a response key.
theorem make_spelled {catalog : Catalog} (hcatalog : catalog.HasPlainNames)
    (hroot : SpelledBy keys root.node) {selections : List Selection}
    (hkeys : aliases (nodesOfAll selections) ⊆ keys) {groupBy : Option String}
    {predicate : Predicate} {registry registry' : AliasRegistry} {plan : Plan}
    (h : Plan.make catalog root selections groupBy predicate registry = .ok (plan, registry')) :
    ∀ key step, plan.selectionStep? key = some step → SpelledBy keys step.node := by
  intro key step hstep
  obtain ⟨hmem, -, horigin⟩ := findStep?_eq_some hstep
  obtain ⟨type, htype, t, ht, field, hfield, -, r, hnode⟩ := Plan.make_selected h hmem horigin
  have hbelow := List.Subset.trans (aliases_subset (nodes_subset_nodesOfAll ht)) hkeys
  have hkey := responseKey_spelled (hcatalog.type htype) hbelow hfield
  rw [hnode]
  exact (hroot.append hkey).fresh r

theorem value_spells {v : Json} {name : String} (hpath : path.SpelledBy keys)
    (h : Drafting.value path v d = .ok (name, d')) : Spells keys d.parameters d'.parameters := by
  obtain ⟨-, hr⟩ := Drafting.value_eq_ok.mp h
  cases hr
  exact .insert hpath.2

theorem readHead_spells (hcatalog : setting.catalog.HasPlainNames) (hpath : path.OpensTo keys)
    {head : ReadHead} (h : s.readHead setting root path d = .ok (head, d')) :
    Spells keys d.parameters d'.parameters := by
  obtain ⟨search, e, read, -, hsearch, hread, -, -, -⟩ := readHead_cases h
  obtain ⟨type, htype, hpredicate, -⟩ := planRead_cases hread
  have hfilter := Predicate.ofSelection_spells hcatalog (hcatalog.type htype) hpath hpredicate
  obtain ⟨-, -, rfl⟩ | ⟨index, v, -, -, -, rfl⟩ := searchCall_cases hsearch
  · exact hfilter
  · exact (Spells.insert (hpath Argument.search (by decide)).2).trans hfilter

theorem window_spells (hpath : path.OpensTo keys) {ps qs : Parameters} {w : Window}
    (h : s.window path ps = .ok (w, qs)) : Spells keys ps qs := by
  have hbound : ∀ {segment : String} {v : Json} {bound : Option String} {ms ls : Parameters},
      isPlainIdentifier segment = true →
      ((bound = none ∧ ls = ms) ∨ ∃ name, bound = some name ∧
        Hoist.value (path.child segment) v ms = .ok (name, ls)) → Spells keys ms ls := by
    rintro segment v bound ms ls hsegment (⟨-, rfl⟩ | ⟨name, -, hv⟩)
    · exact .refl _
    · obtain ⟨-, hr⟩ := Hoist.value_eq_ok.mp hv
      cases hr
      exact .insert (hpath segment hsegment).2
  obtain ⟨p, ms, -, hskip, hlimit⟩ := window_cases h
  exact (hbound (by decide) hskip).trans (hbound (by decide) hlimit)

theorem bindArguments_spells (hpath : path.SpelledBy keys) {referenced declared : List String}
    (hdeclared : AreWords declared) {arguments : Json.Members}
    {bindings : List (String × Binding)}
    (h : Field.bindArguments referenced arguments path declared d = .ok (bindings, d')) :
    Spells keys d.parameters d'.parameters := by
  induction declared generalizing d bindings with
  | nil =>
      cases bindArguments_nil_eq_ok.mp h
      exact .refl _
  | cons name rest ih =>
      obtain ⟨hname, hrest⟩ := List.forall_mem_cons.mp hdeclared
      obtain ⟨more, ⟨v, e, -, hv, hmore, -⟩ | ⟨-, hmore, -⟩⟩ := bindArguments_cons_cases h
      · exact (value_spells (hpath.child (.inl hname)) hv).trans (ih hrest hmore)
      · exact ih hrest hmore

theorem customCall_spells {field : Field} (harguments : AreWords field.arguments)
    (hkey : IsWord s.responseKey ∨ s.responseKey ∈ keys) {statement node : String}
    (hnode : SpelledBy keys node) {call : CustomCall}
    (h : s.customCall setting field statement node d = .ok (call, d')) :
    Spells keys d.parameters d'.parameters := by
  obtain ⟨ambient, arguments, e, hambient, -, hbind, -⟩ := customCall_cases h
  have hbound := bindArguments_spells ((ParameterPath.spelledBy_below hnode).child hkey) harguments
    hbind
  obtain ⟨-, -, rfl⟩ | ⟨-, -, rfl⟩ := hambient
  · exact (Spells.share (.of_plain (by decide))).trans hbound
  · exact hbound

theorem readWith_spells (hcatalog : setting.catalog.HasPlainNames) (hpath : path.OpensTo keys)
    (hroot : SpelledBy keys root.node) (hkeys : aliases (nodesOfAll s.selections) ⊆ keys)
    {project : NodeType → Plan → Drafting (List Item)} {query : ReadQuery}
    (h : s.readWith setting root path project d = .ok (query, d'))
    (hproject : ∀ {type : NodeType} {plan : Plan} {e f : Draft} {items : List Item},
      type.HasPlainNames →
      (∀ key step, plan.selectionStep? key = some step → SpelledBy keys step.node) →
      project type plan e = .ok (items, f) → Spells keys e.parameters f.parameters) :
    Spells keys d.parameters d'.parameters := by
  obtain ⟨head, e, f, items, order, window, hhead, hitems, -, hwindow, -, -⟩ := readWith_cases h
  obtain ⟨search, c, read, htype, -, hread, hplan, -, -⟩ := readHead_cases hhead
  obtain ⟨_, -, -, hmake⟩ := planRead_cases hread
  have hsteps := make_spelled hcatalog hroot hkeys hmake
  rw [← hplan] at hsteps
  exact ((readHead_spells hcatalog hpath hhead).trans
    (hproject (hcatalog.type htype) hsteps hitems)).trans (window_spells hpath hwindow)

mutual

-- Below a node whose name is made of segments so are all names that an entry takes out.
theorem project_spells (hcatalog : setting.catalog.HasPlainNames) {type : NodeType}
    (htype : type.HasPlainNames) {node : String} (hnode : SpelledBy keys node) {plan : Plan}
    (hplan : ∀ key step, plan.selectionStep? key = some step → SpelledBy keys step.node)
    (s : Selection) (hkeys : aliases s.nodes ⊆ keys) {d d' : Draft} {item : Item}
    (h : s.project setting type node plan d = .ok (item, d')) :
    Spells keys d.parameters d'.parameters := by
  have hsize := sizeOf_selections_lt s
  have hbelow := List.Subset.trans (aliases_subset (nodesOfAll_selections_subset s)) hkeys
  cases project_cases h with
  | related hfield _ hstep hquery =>
      have hchild := hplan _ _ hstep
      apply readWith_spells hcatalog (ParameterPath.spelledBy_below hchild).opensTo hchild hbelow
        hquery
      intro target inner e f items htarget hinner hitems
      exact projectAll_spells hcatalog htarget hchild hinner s.selections hbelow hitems
  | computed hfield _ _ hcall =>
      have hkey := responseKey_spelled htype hkeys hfield
      exact customCall_spells (htype.areWords_arguments hfield) hkey hnode hcall
  | @computedNodes _ _ _ _ _ _ _ _ e _ _ hfield _ _ hcall htarget hinner hitems =>
      have hkey := responseKey_spelled htype hkeys hfield
      have hitem := (hnode.append hkey).fresh e.aliases
      obtain ⟨hmake, hparameters⟩ := planSelections_cases hinner
      have hentries := projectAll_spells hcatalog (hcatalog.type htarget) hitem
        (make_spelled hcatalog hitem hbelow hmake) s.selections hbelow hitems
      rw [hparameters] at hentries
      exact (customCall_spells (htype.areWords_arguments hfield) hkey hnode hcall).trans hentries
  | _ => exact .refl _
termination_by sizeOf s

theorem projectAll_spells (hcatalog : setting.catalog.HasPlainNames) {type : NodeType}
    (htype : type.HasPlainNames) {node : String} (hnode : SpelledBy keys node) {plan : Plan}
    (hplan : ∀ key step, plan.selectionStep? key = some step → SpelledBy keys step.node)
    (selections : List Selection) (hkeys : aliases (nodesOfAll selections) ⊆ keys)
    {d d' : Draft} {items : List Item}
    (h : projectAll setting type node plan selections d = .ok (items, d')) :
    Spells keys d.parameters d'.parameters := by
  match selections, h with
  | [], h =>
      cases projectAll_nil_eq_ok.mp h
      exact .refl _
  | s :: rest, h =>
      obtain ⟨item, more, e, hitem, hmore, rfl⟩ := projectAll_cons_cases h
      have hfirst : aliases s.nodes ⊆ keys :=
        List.Subset.trans (aliases_subset (nodes_subset_nodesOfAll List.mem_cons_self)) hkeys
      have hothers : aliases (nodesOfAll rest) ⊆ keys := by
        refine List.Subset.trans (aliases_subset ?_) hkeys
        rw [nodesOfAll]
        exact List.subset_append_right _ _
      exact (project_spells hcatalog htype hnode hplan s hfirst hitem).trans
        (projectAll_spells hcatalog htype hnode hplan rest hothers hmore)
termination_by sizeOf selections

end

end Selection

namespace Request

open Selection

variable {r : Request}

-- The parameters of a query are made of identifiers and of the response aliases of selected
-- fields, which stand in them as they are. They are identifiers where the aliases are words.
theorem compile_parameters_spelled {catalog : Catalog} (hcatalog : catalog.HasPlainNames)
    {config : Config} (hoperation : r.operation = .query) {plan : StatementPlan}
    (h : r.compile catalog config = .ok plan) {n : String} (hn : n ∈ plan.parameters.names) :
    SpelledBy (aliases (nodesOfAll r.field.selections)) n ∧
      (AreWords (aliases (nodesOfAll r.field.selections)) → isPlainIdentifier n = true) := by
  suffices hspelled : SpelledBy (aliases (nodesOfAll r.field.selections)) n from
    ⟨hspelled, hspelled.isPlainIdentifier⟩
  obtain ⟨type, d, htype, -, hstatement, hparameters⟩ := compile_cases h
  rw [hparameters] at hn
  have hnames := hcatalog.type (type?_of_rootType htype)
  have hroot : SpelledBy (aliases (nodesOfAll r.field.selections)) (Alias.root type.name) :=
    .of_plain (Alias.isPlainIdentifier_root hnames.name)
  obtain ⟨-, query, -, hquery⟩ | ⟨hcount, -⟩ | hmutation := statement_cases hstatement
  · have hspells := readWith_spells hcatalog ParameterPath.opensTo_root hroot (.refl _) hquery
      fun htarget hinner hitems => projectAll_spells hcatalog htarget hroot hinner
        r.field.selections (.refl _) hitems
    obtain hinitial | hspelled := hspells n hn
    · exact mem_initialDraft hinitial ▸ .of_plain (by decide)
    · exact hspelled
  · rw [hoperation] at hcount
    cases hcount
  · rw [hoperation] at hmutation
    generalize plan.statement = statement at hmutation
    cases Mutation.statement_cases hmutation with
    | change hkind => simp at hkind

-- The first actor of every movie, shown under another name.
def firstActorRequest (key : String) : Request :=
  ⟨.query,
    ⟨"movies", none, [],
      [⟨"title", none, [], []⟩,
        ⟨"actors", some key, [("first", .ofInt 1)], [⟨"name", none, [], []⟩]⟩]⟩,
    some "Movie", [], ⟨[]⟩⟩

theorem compile_parameters_spelled_firstActorRequest :
    ∃ plan, (firstActorRequest "lead").compile movies .default = .ok plan ∧
      "movie_lead_first" ∈ plan.parameters.names ∧
      isPlainIdentifier "movie_lead_first" = true := by
  obtain ⟨plan, hplan, hname⟩ : ∃ plan,
      (firstActorRequest "lead").compile movies .default = .ok plan ∧
      "movie_lead_first" ∈ plan.parameters.names := ⟨_, rfl, by decide⟩
  have haliases : AreWords (aliases (nodesOfAll (firstActorRequest "lead").field.selections)) := by
    simp [AreWords, aliases, firstActorRequest, nodes, nodesOfAll]
    exact isWord_of_all (by decide)
  exact ⟨plan, hplan, hname,
    (compile_parameters_spelled movies_hasPlainNames rfl hplan hname).2 haliases⟩

-- An alias with a blank stands in the name of a parameter, which nothing quotes.
theorem compile_parameters_unquoted :
    ∃ plan, (firstActorRequest "a b").compile movies .default = .ok plan ∧
      movies.HasPlainNames ∧ "movie_a b_first" ∈ plan.parameters.names ∧
      isPlainIdentifier "movie_a b_first" = false :=
  ⟨_, rfl, movies_hasPlainNames, by decide, by decide⟩

end Request

end CypherCompiler
