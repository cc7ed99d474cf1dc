import CypherCompiler.Proofs.Naming.Source

namespace CypherCompiler

open Cypher

namespace Selection

variable {s : Selection} {setting : Setting} {root : Root} {path : ParameterPath} {d d' : Draft}

theorem bindArguments_aliases {referenced declared : List String} {arguments : Json.Members}
    {bindings : List (String × Binding)}
    (h : Field.bindArguments referenced arguments path declared d = .ok (bindings, d')) :
    d'.aliases = d.aliases := by
  induction declared generalizing d bindings with
  | nil =>
      cases bindArguments_nil_eq_ok.mp h
      rfl
  | cons name rest ih =>
      obtain ⟨more, ⟨v, e, -, hvalue, hmore, -⟩ | ⟨-, hmore, -⟩⟩ := bindArguments_cons_cases h
      · obtain ⟨-, hr⟩ := Drafting.value_eq_ok.mp hvalue
        cases hr
        have hrest := ih hmore
        exact hrest
      · exact ih hmore

theorem customCall_aliases {field : Field} {statement node : String} {call : CustomCall}
    (h : s.customCall setting field statement node d = .ok (call, d')) :
    d'.aliases = d.aliases := by
  obtain ⟨ambient, arguments, e, hambient, -, harguments, -⟩ := customCall_cases h
  rw [bindArguments_aliases harguments]
  obtain ⟨-, -, rfl⟩ | ⟨-, -, rfl⟩ := hambient <;> rfl

theorem planSelections_introduces {catalog : Catalog} {node typeName : String}
    {selections : List Selection} {plan : Plan}
    (h : planSelections catalog node typeName selections d = .ok (plan, d')) :
    Introduces d.aliases d'.aliases plan.mentions :=
  (Plan.make_newlyNamed (planSelections_cases h).1).introduces.of_reserve

theorem readWith_accounts (hcatalog : setting.catalog.HasDistinctHops)
    {project : NodeType → Plan → Drafting (List Item)}
    (hproject : ∀ type plan e items f, project type plan e = .ok (items, f) →
      Accounts plan.mentions e.aliases f.aliases (Item.mentionsOfAll items))
    {query : ReadQuery} (h : s.readWith setting root path project d = .ok (query, d')) :
    Accounts root.mentions (d.aliases.reserve root.node) d'.aliases query.mentions := by
  obtain ⟨head, e, f, items, order, window, hhead, hitems, -, -, haliases, rfl⟩ :=
    readWith_cases h
  obtain ⟨entries, hentries, hplan, hsource⟩ := readHead_introduces hcatalog hhead
  rw [haliases, ReadQuery.mentions]
  exact .within hentries hsource hplan (hproject _ _ _ _ _ hitems)

mutual

-- The entries of a map mention the nodes of the plan and otherwise only new names.
theorem project_accounts (hcatalog : setting.catalog.HasDistinctHops) (s : Selection)
    {type : NodeType} {node : String} {plan : Plan} {item : Item} {d d' : Draft}
    (h : s.project setting type node plan d = .ok (item, d')) :
    Accounts plan.mentions d.aliases d'.aliases item.mentions := by
  have hsize := sizeOf_selections_lt s
  cases project_cases h with
  | @related field relation step query _ _ hfield hkind hstep hquery =>
      have hitems := readWith_accounts hcatalog
        (fun target inner _ _ _ hitems => projectAll_accounts hcatalog s.selections hitems) hquery
      obtain ⟨entries, hentries, hmentions⟩ := hitems
      refine ⟨entries, hentries.of_reserve, ?_⟩
      -- the nested query starts with the hop of its step
      intro m hm
      rcases hmentions m hm with hm | hm
      · have hincoming : m = step.mention := List.mem_singleton.mp hm
        rw [hincoming]
        exact .inl (List.mem_map_of_mem (findStep?_eq_some hstep).1)
      · exact .inr hm
  | computed _ _ _ hcall =>
      rw [customCall_aliases hcall]
      exact .refl _ _
  | @computedNodes _ _ _ _ _ _ items _ e _ _ _ _ _ hcall _ hplan hitems =>
      have hinner := projectAll_accounts hcatalog s.selections hitems
      have hclaim : Introduces e.aliases
          (e.aliases.reserve (e.aliases.fresh (Alias.child node s.responseKey)))
          [.listItem (e.aliases.fresh (Alias.child node s.responseKey))] := .claim rfl
      have hnames := hclaim.trans (planSelections_introduces hplan)
      rw [← customCall_aliases hcall]
      change Accounts _ _ _ ([.listItem _] ++ Item.mentionsOfAll items)
      exact .within hnames (fun m hm => .inr (List.mem_append_left _ hm))
        (List.subset_append_right _ _) hinner
  | _ => exact .refl _ _
termination_by sizeOf s

theorem projectAll_accounts (hcatalog : setting.catalog.HasDistinctHops)
    (selections : List Selection) {type : NodeType} {node : String} {plan : Plan}
    {items : List Item} {d d' : Draft}
    (h : projectAll setting type node plan selections d = .ok (items, d')) :
    Accounts plan.mentions d.aliases d'.aliases (Item.mentionsOfAll items) := by
  match selections, h with
  | [], h =>
      cases projectAll_nil_eq_ok.mp h
      exact .refl _ _
  | s :: rest, h =>
      obtain ⟨item, more, e, hitem, hmore, rfl⟩ := projectAll_cons_cases h
      exact (project_accounts hcatalog s hitem).append (projectAll_accounts hcatalog rest hmore)
termination_by sizeOf selections

end

theorem readQuery_accounts (hcatalog : setting.catalog.HasDistinctHops) {query : ReadQuery}
    (h : s.readQuery setting root path d = .ok (query, d')) :
    Accounts root.mentions (d.aliases.reserve root.node) d'.aliases query.mentions :=
  readWith_accounts hcatalog
    (fun _ _ _ _ _ hitems => projectAll_accounts hcatalog s.selections hitems) h

theorem countQuery_accounts (hcatalog : setting.catalog.HasDistinctHops) {type : NodeType}
    (htype : setting.catalog.type? type.name = some type) {query : CountQuery}
    (h : s.countQuery setting type d = .ok (query, d')) :
    Accounts [] (d.aliases.reserve (Alias.root type.name)) d'.aliases query.source.mentions := by
  obtain ⟨search, e, groupBy, read, source, hsearch, -, hread, hsource, rfl⟩ := countQuery_cases h
  obtain ⟨entries, hentries, -, hmentions⟩ :=
    planRead_introduces hcatalog htype hsearch hread hsource
  exact ⟨entries, hentries, hmentions⟩

end Selection

end CypherCompiler
