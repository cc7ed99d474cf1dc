import CypherCompiler.Proofs.Authorization.Reads
import CypherCompiler.Proofs.Outcome.Compilation
import CypherCompiler.Proofs.Outcome.Source
import CypherCompiler.Proofs.Selection.Nodes
import CypherCompiler.Proofs.Traversal.Selected

namespace CypherCompiler

open Cypher

namespace Selection

variable {catalog : Catalog} {grants : Grants} {type : NodeType} {s : Selection}

-- The selections of a field agree if those of one response key select the same field.
def SiblingsAgree (s : Selection) : Prop :=
  ∀ a ∈ s.selections, ∀ b ∈ s.selections, a.responseKey = b.responseKey → a.name = b.name

-- A field that is asked for is permitted, and those below it are asked for on its target.
theorem authorize_cases (h : s.authorize catalog grants type = .ok ()) {field : Field}
    (hfield : type.field? s.name = some field) :
    grants.permits field.scopes = true ∧ ∀ name target, field.target? = some name →
      catalog.type? name = some target →
        authorizeAll catalog grants target s.selections = .ok () := by
  cases s with
  | mk name aliasName arguments selections =>
      simp only [authorize, hfield] at h
      split at h
      · cases h
      · rename_i hpermits
        refine ⟨by simpa using hpermits, ?_⟩
        intro targetName target hname htarget
        simp only [hname, except_bind_eq_ok, Catalog.require_eq_ok] at h
        obtain ⟨found, hfound, hall⟩ := h
        obtain rfl : found = target := Option.some.inj (hfound.symm.trans htarget)
        exact hall

theorem authorizeAll_mem {selections : List Selection}
    (h : authorizeAll catalog grants type selections = .ok ()) (hs : s ∈ selections) :
    s.authorize catalog grants type = .ok () := by
  induction selections with
  | nil => cases hs
  | cons t rest ih =>
      rw [authorizeAll, except_bind_eq_ok] at h
      obtain ⟨_, ht, hrest⟩ := h
      rcases List.mem_cons.mp hs with rfl | hs
      · exact ht
      · exact ih hrest hs

end Selection

-- A nested query starts with the hop that leads to its root.
theorem Plan.pattern_relation {p : Plan} {type : NodeType} {pattern : Pattern}
    {incoming : Incoming} (hroot : p.root.incoming = some incoming)
    (h : p.pattern type = .ok pattern) :
    pattern.start = .hop ⟨incoming.parent, incoming.relation, p.root.node⟩ := by
  unfold Plan.pattern at h
  simp only [except_bind_eq_ok, except_pure_eq_ok, hroot] at h
  obtain ⟨_, -, rfl⟩ := h
  rfl

namespace Selection

variable {setting : Setting} {grants : Grants} {s : Selection} {d d' : Draft}

-- A plan in which every selection finds a step of its own relationship, of the type that this
-- relationship leads to.
def StepsAgree (type : NodeType) (plan : Plan) (selections : List Selection) : Prop :=
  ∀ s ∈ selections, ∀ step, plan.selectionStep? s.responseKey = some step →
    (type.field? s.name).bind Field.relation? = some step.incoming.relation ∧
      step.typeName = step.incoming.relation.target

theorem stepsAgree_make {catalog : Catalog} {root : Root} {groupBy : Option String}
    {predicate : Predicate} {aliases aliases' : AliasRegistry} {plan : Plan} {type : NodeType}
    (hsiblings : s.SiblingsAgree) (htype : catalog.type? root.typeName = some type)
    (h : Plan.make catalog root s.selections groupBy predicate aliases = .ok (plan, aliases')) :
    StepsAgree type plan s.selections := by
  intro a ha step hstep
  obtain ⟨found, hfound, b, hb, hkey, hrelation⟩ := Plan.selectionStep?_cases h hstep
  obtain rfl : found = type := Option.some.inj (hfound.symm.trans htype)
  rw [← hsiblings b hb a ha hkey]
  exact ⟨hrelation, Plan.make_selectionStep?_typeName h hstep⟩

-- The entries of a query are made from a plan of its selections.
theorem readWith_planned {root : Root} {path : ParameterPath}
    {project : NodeType → Plan → Drafting (List Item)} {query : ReadQuery}
    (h : s.readWith setting root path project d = .ok (query, d')) :
    ∃ target plan predicate aliases aliases' e f,
      setting.catalog.type? root.typeName = some target ∧
      Plan.make setting.catalog root s.selections none predicate aliases = .ok (plan, aliases') ∧
      project target plan e = .ok (query.items, f) := by
  obtain ⟨head, e, f, items, order, window, hhead, hitems, -, -, -, rfl⟩ := readWith_cases h
  obtain ⟨search, c, read, htype, -, hread, hplan, -, -⟩ := readHead_cases hhead
  obtain ⟨_, -, -, hmake⟩ := planRead_cases hread
  exact ⟨head.type, head.plan, _, _, _, e, f, htype, hplan ▸ hmake, hitems⟩

-- The entries of a query are read from the type of its root.
theorem readWith_entries {root : Root} {path : ParameterPath}
    {project : NodeType → Plan → Drafting (List Item)} {query : ReadQuery}
    (hsiblings : s.SiblingsAgree) (h : s.readWith setting root path project d = .ok (query, d')) :
    ∃ target plan e f, setting.catalog.type? root.typeName = some target ∧
      StepsAgree target plan s.selections ∧ project target plan e = .ok (query.items, f) := by
  obtain ⟨target, plan, _, _, _, e, f, htype, hmake, hitems⟩ := readWith_planned h
  exact ⟨target, plan, e, f, htype, stepsAgree_make hsiblings htype hmake, hitems⟩

theorem readWith_relation {root : Root} {incoming : Incoming}
    (hroot : root.incoming = some incoming) {path : ParameterPath}
    {project : NodeType → Plan → Drafting (List Item)} {query : ReadQuery}
    (h : s.readWith setting root path project d = .ok (query, d')) :
    query.relation? = some incoming.relation := by
  obtain ⟨head, e, f, items, order, window, hhead, -, -, -, -, rfl⟩ := readWith_cases h
  obtain ⟨search, c, read, -, -, hread, -, hsource, -⟩ := readHead_cases hhead
  obtain ⟨_, -, -, hmake⟩ := planRead_cases hread
  have hincoming : read.plan.root.incoming = some incoming := by
    rw [Plan.make_root hmake, hroot]
  obtain ⟨-, hpattern, -⟩ := Plan.source_eq_ok hsource
  rw [ReadQuery.relation?, Plan.pattern_relation hincoming hpattern]

-- Every entry is that of one of the selections.
theorem mem_zip_projectAll {type : NodeType} {node : String} {plan : Plan}
    {selections : List Selection} {items : List Item}
    (h : projectAll setting type node plan selections d = .ok (items, d')) {t : Selection}
    {item : Item} (hitem : (t, item) ∈ selections.zip items) :
    t ∈ selections ∧ ∃ e f, t.project setting type node plan e = .ok (item, f) := by
  induction selections generalizing items d with
  | nil => simp at hitem
  | cons s rest ih =>
      obtain ⟨first, more, e, hfirst, hmore, rfl⟩ := projectAll_cons_cases h
      rw [List.zip_cons_cons, List.mem_cons, Prod.mk.injEq] at hitem
      obtain ⟨rfl, rfl⟩ | hitem := hitem
      · exact ⟨List.mem_cons_self, _, _, hfirst⟩
      · obtain ⟨ht, hproject⟩ := ih hmore hitem
        exact ⟨List.mem_cons_of_mem s ht, hproject⟩

-- The entry for a field that is asked for reads permitted fields only. The two walks of the
-- selections meet the same types, as the step of a selection follows its own relationship.
theorem project_permitted {type : NodeType} {node : String} {plan : Plan}
    (hauthorize : s.authorize setting.catalog grants type = .ok ())
    (hsteps : ∀ step, plan.selectionStep? s.responseKey = some step →
      (type.field? s.name).bind Field.relation? = some step.incoming.relation ∧
        step.typeName = step.incoming.relation.target)
    (hsiblings : ∀ t ∈ s.nodes, t.SiblingsAgree) {item : Item}
    (h : s.project setting type node plan d = .ok (item, d')) {field : Field}
    (hreads : item.ReadsField setting.catalog type s field) :
    grants.permits field.scopes = true := by
  induction hreads generalizing node plan d d' with
  | @property type s item name field hitem hfield =>
      -- the property that is read has the name of the selection
      have hname : name = s.name := by
        cases project_cases h with
        | shorthand hown | property hown | compound hown =>
            cases hitem
            exact (NodeType.field?_eq_some hown).2
        | _ => cases hitem
      exact (authorize_cases hauthorize (hname ▸ hfield)).1
  | related hfield | computed hfield | computedNodes hfield =>
      exact (authorize_cases hauthorize hfield).1
  | @belowRelated type target s t key list query relation item field hrelation htarget hitem
      hreads ih =>
      cases project_cases h with
      | @related owner relation' step _ _ _ howner hkind hstep hquery =>
          obtain ⟨target', inner, e, f, htarget', hagree, hitems⟩ :=
            readWith_entries (hsiblings s (mem_nodes_self s)) hquery
          obtain rfl : step.incoming.relation = relation :=
            Option.some.inj ((readWith_relation rfl hquery).symm.trans hrelation)
          -- the step follows the relationship of the selection, not that of a sibling
          obtain ⟨hown, htyped⟩ := hsteps step hstep
          obtain rfl : target' = target :=
            Option.some.inj (htarget'.symm.trans (htyped ▸ htarget))
          rw [howner, Option.bind_some, Field.relation?, hkind] at hown
          have hname : owner.target? = some step.incoming.relation.target := by
            rw [Field.target?, hkind, Option.some.inj hown]
          have hbelow := (authorize_cases hauthorize howner).2 _ _ hname htarget
          obtain ⟨ht, _, _, hproject⟩ := mem_zip_projectAll hitems hitem
          exact ih (authorizeAll_mem hbelow ht) (hagree t ht)
            (fun u hu => hsiblings u (nodes_subset_of_mem ht hu)) hproject
  | @belowComputed type target s t key itemNode name statement list call items item owner field
      howner hkind htarget hitem hreads ih =>
      cases project_cases h with
      | @computedNodes owner' statement' target' targetType _ inner _ _ _ _ _ howner' hkind' hleaf
          hcall htarget' hplan hitems =>
          obtain rfl : owner' = owner := Option.some.inj (howner'.symm.trans howner)
          rw [hkind'] at hkind
          cases hkind
          obtain rfl : targetType = target := Option.some.inj (htarget'.symm.trans htarget)
          have hname : owner'.target? = some name := by
            rw [Field.target?, hkind']
          have hbelow := (authorize_cases hauthorize howner).2 _ _ hname htarget
          obtain ⟨hmake, -⟩ := planSelections_cases hplan
          have hagree := stepsAgree_make (hsiblings s (mem_nodes_self s)) htarget hmake
          obtain ⟨ht, _, _, hproject⟩ := mem_zip_projectAll hitems hitem
          exact ih (authorizeAll_mem hbelow ht) (hagree t ht)
            (fun u hu => hsiblings u (nodes_subset_of_mem ht hu)) hproject

end Selection

end CypherCompiler
