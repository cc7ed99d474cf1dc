import CypherCompiler.Proofs.Authorization.Permitted
import CypherCompiler.Proofs.Cypher.Wording
import CypherCompiler.Proofs.Outcome.Sequence
import CypherCompiler.Proofs.Traversal.Grouped

namespace CypherCompiler

open Cypher

-- A nested query that starts with the hop to the node that it shows. What is asked of the node, and
-- how many of the nodes are shown in which order, is left open.
def Wording.nested (h : Hop) (entries : List String) (key : String) (conditions : List Condition)
    (terms : List OrderTerm) (w : Window) : String :=
  "COLLECT \x7b " ++ String.intercalate " "
    (["MATCH " ++ Wording.hop h ++ Wording.conditions conditions,
      "RETURN " ++ Wording.shown h.child entries ++ " AS " ++ quoteIdentifier key] ++
        Wording.order terms ++ Wording.window w) ++ " \x7d"

mutual

-- The entry for a selected field in a map of the node `node`, as it is written. A nested query
-- starts with the hop of the field, and so does its map mirror what is selected below.
inductive Mirrors (catalog : Catalog) : NodeType → String → Selection → String → Prop
  | typeName {type : NodeType} {node : String} {s : Selection} (hname : s.name = typeNameField) :
      Mirrors catalog type node s (propertyKey s.responseKey ++ ": " ++ stringLiteral type.name)
  | nodeId {type : NodeType} {node : String} {s : Selection} (hname : s.name = Argument.nodeId) :
      Mirrors catalog type node s
        (propertyKey s.responseKey ++ ": ID(" ++ quoteIdentifier node ++ ")")
  | shorthand {type : NodeType} {node : String} {s : Selection} {field : Field} {scalar : Scalar}
      (hfield : type.field? s.name = some field) (hkind : field.kind = .scalar scalar)
      (halias : s.aliasName = none) :
      Mirrors catalog type node s ("." ++ propertyKey s.name)
  | property {type : NodeType} {node : String} {s : Selection} {field : Field} {scalar : Scalar}
      (hfield : type.field? s.name = some field) (hkind : field.kind = .scalar scalar)
      (halias : s.aliasName ≠ none) :
      Mirrors catalog type node s
        (propertyKey s.responseKey ++ ": " ++ Wording.property node s.name)
  | compound {type : NodeType} {node : String} {s : Selection} {field : Field}
      {compound : Compound} (hfield : type.field? s.name = some field)
      (hkind : field.kind = .compound compound) (hleaf : s.selections = []) :
      Mirrors catalog type node s (propertyKey s.responseKey ++ ": " ++
        Wording.map (compound.constituents.map fun c =>
          (c, Wording.property node s.name ++ "." ++ c)))
  | parts {type : NodeType} {node : String} {s : Selection} {field : Field} {compound : Compound}
      (hfield : type.field? s.name = some field) (hkind : field.kind = .compound compound)
      (hselected : s.selections ≠ [])
      (hparts : ∀ t ∈ s.selections, compound.hasSubField t.name = true) :
      Mirrors catalog type node s (propertyKey s.responseKey ++ ": " ++
        Wording.map (s.selections.map fun t => (t.responseKey,
          if t.name = Compound.formatted then "toString(" ++ Wording.property node s.name ++ ")"
          else Wording.property node s.name ++ "." ++ t.name)))
  | related {type target : NodeType} {node child : String} {s : Selection} {field : Field}
      {relation : Relation} {entries : List String} {conditions : List Condition}
      {terms : List OrderTerm} {w : Window} (hfield : type.field? s.name = some field)
      (hkind : field.kind = .relationship relation)
      (htarget : catalog.type? relation.target = some target)
      (hmap : MirrorsAll catalog target child s.selections entries) :
      Mirrors catalog type node s (propertyKey s.responseKey ++ ": " ++
        Wording.values field.list
          (Wording.nested ⟨node, relation, child⟩ entries s.responseKey conditions terms w))
  | computed {type : NodeType} {node : String} {s : Selection} {field : Field}
      {statement : String} {returns : ValueType} {bindings : List (String × String)}
      (hfield : type.field? s.name = some field) (hkind : field.kind = .computed statement returns)
      (hshown : s.selections = [] ∨ ∀ target, returns ≠ .object target) :
      Mirrors catalog type node s (propertyKey s.responseKey ++ ": " ++
        Wording.call field.list statement (("this", quoteIdentifier node) :: bindings))
  | computedNodes {type target : NodeType} {node item : String} {s : Selection} {field : Field}
      {statement name : String} {bindings : List (String × String)} {entries : List String}
      (hfield : type.field? s.name = some field)
      (hkind : field.kind = .computed statement (.object name)) (hselected : s.selections ≠ [])
      (htarget : catalog.type? name = some target)
      (hmap : MirrorsAll catalog target item s.selections entries) :
      Mirrors catalog type node s (propertyKey s.responseKey ++ ": " ++
        Wording.values field.list ("[" ++ quoteIdentifier item ++ " IN " ++
          Wording.call true statement (("this", quoteIdentifier node) :: bindings) ++ " | " ++
          Wording.shown item entries ++ "]"))

-- The entries for a list of selections, one for each of them and in their order.
inductive MirrorsAll (catalog : Catalog) : NodeType → String → List Selection → List String → Prop
  | nil {type : NodeType} {node : String} : MirrorsAll catalog type node [] []
  | cons {type : NodeType} {node : String} {s : Selection} {rest : List Selection}
      {entry : String} {entries : List String} (hentry : Mirrors catalog type node s entry)
      (hrest : MirrorsAll catalog type node rest entries) :
      MirrorsAll catalog type node (s :: rest) (entry :: entries)

end

theorem Cypher.ReadQuery.collect_eq {q : ReadQuery} {h : Hop} (hsearch : q.source.search = none)
    (hpattern : q.source.pattern = ⟨.hop h, []⟩) (hnode : q.node = h.child) :
    "COLLECT " ++ braced (" " ++ q.render ++ " ") =
      Wording.nested h (Item.renderAll q.items) q.key q.source.conditions q.order q.window := by
  have hsource : Wording.source q.source =
      "MATCH " ++ Wording.hop h ++ Wording.conditions q.source.conditions := by
    simp [Wording.source, Wording.start, hsearch, hpattern]
  rw [ReadQuery.render_eq, Wording.read, hsource, hnode]
  unfold Wording.nested Wording.result
  simp [braced, ← String.toList_inj]

namespace Plan

variable {catalog : Catalog} {root : Root} {selections : List Selection} {predicate : Predicate}
  {aliases aliases' : AliasRegistry} {plan : Plan}

-- The steps of selections start at the root.
def StartsAt (plan : Plan) (node : String) : Prop :=
  ∀ key step, plan.selectionStep? key = some step → step.incoming.parent = node

theorem make_startsAt {groupBy : Option String}
    (h : make catalog root selections groupBy predicate aliases = .ok (plan, aliases')) :
    plan.StartsAt root.node := by
  intro key step hstep
  obtain ⟨hmem, hpath, -⟩ := findStep?_eq_some hstep
  exact make_parent h hmem hpath

end Plan

namespace Selection

variable {setting : Setting} {s : Selection} {d d' : Draft}

theorem siblingsAgree_of_nodup (h : (s.selections.map responseKey).Nodup) : s.SiblingsAgree := by
  intro a ha b hb hkey
  rw [List.inj_on_of_nodup_map h ha hb hkey]

-- A search stands at the root of a statement only.
theorem searchCall_incoming {root : Root} {type : NodeType} {path : ParameterPath}
    {search : Option SearchCall} {incoming : Incoming} (hroot : root.incoming = some incoming)
    (h : s.searchCall root type path d = .ok (search, d')) : search = none := by
  unfold searchCall at h
  cases hv : s.argument? Argument.search with
  | none =>
      rw [hv] at h
      cases pure_eq_ok.mp h
      rfl
  | some v =>
      cases hindex : type.searchIndex? <;> simp only [hv, hindex, hroot] at h <;>
        exact (throw_eq_ok.mp h).elim

-- A nested query starts with the hop to its root, and has no other.
theorem readWith_source {root : Root} {incoming : Incoming}
    (hroot : root.incoming = some incoming) {path : ParameterPath}
    {project : NodeType → Plan → Drafting (List Item)} {query : ReadQuery}
    (h : s.readWith setting root path project d = .ok (query, d')) :
    query.node = root.node ∧ query.key = s.responseKey ∧ query.source.search = none ∧
      query.source.pattern =
        ⟨.hop ⟨incoming.parent, incoming.relation, root.node⟩, []⟩ := by
  obtain ⟨head, e, f, items, order, window, hhead, -, -, -, -, rfl⟩ := readWith_cases h
  obtain ⟨search, c, read, -, hsearch, hread, -, hsource, -⟩ := readHead_cases hhead
  obtain ⟨_, -, -, hmake⟩ := planRead_cases hread
  obtain ⟨hcall, hpattern, -⟩ := Plan.source_eq_ok hsource
  refine ⟨rfl, rfl, hcall.trans (searchCall_incoming hroot hsearch), ?_⟩
  unfold Plan.pattern at hpattern
  simp only [Plan.make_root hmake, hroot, Plan.make_groupBySteps hmake, Plan.chainFrom,
    pure_bind, except_pure_eq_ok] at hpattern
  exact hpattern

-- The text of a call, which binds the node first.
theorem customCall_text {field : Field} {statement node : String} {call : CustomCall}
    (h : s.customCall setting field statement node d = .ok (call, d')) (many : Bool) :
    ∃ bindings, call.render many =
      Wording.call many statement (("this", quoteIdentifier node) :: bindings) := by
  obtain ⟨_, _, _, -, -, -, rfl⟩ := customCall_cases h
  exact ⟨_, CustomCall.render_eq _ many⟩

theorem parts_mirror {type : NodeType} {node : String} {catalog : Catalog} {field : Field}
    {compound : Compound} (hfield : type.field? s.name = some field)
    (hkind : field.kind = .compound compound) {parts : List Part}
    (h : s.parts compound = .ok parts) :
    Mirrors catalog type node s (Item.compound s.responseKey node field.name parts).render := by
  have hmap (entries : List (String × String))
      (htexts : parts.map (Part.render (propertyRead node s.name)) =
        entries.map fun e => propertyKey e.1 ++ ": " ++ e.2) :
      (Item.compound s.responseKey node field.name parts).render =
        propertyKey s.responseKey ++ ": " ++ Wording.map entries := by
    rw [Item.render, (NodeType.field?_eq_some hfield).2, htexts, Wording.map]
    rfl
  unfold Selection.parts at h
  split at h
  · rename_i hleaf
    cases h
    have htexts : (compound.constituents.map fun c => Part.constituent c c).map
        (Part.render (propertyRead node s.name)) =
      (compound.constituents.map fun c => (c, Wording.property node s.name ++ "." ++ c)).map
        fun e => propertyKey e.1 ++ ": " ++ e.2 := by
      simp [Part.render, Wording.property, propertyRead, String.append_assoc]
    rw [hmap _ htexts]
    exact .compound hfield hkind (List.isEmpty_iff.mp hleaf)
  · rename_i hleaf
    have hselected := except_mapM_eq_ok_iff.mp h
    have hnamed : ∀ t ∈ s.selections, compound.hasSubField t.name = true := by
      intro t ht
      obtain ⟨_, hpart⟩ := exists_forall₂_iff.mp ⟨_, hselected⟩ t ht
      split at hpart
      · cases hpart
      · rename_i hfound
        simpa using hfound
    have htexts : parts.map (Part.render (propertyRead node s.name)) =
        (s.selections.map fun t => (t.responseKey,
          if t.name = Compound.formatted then "toString(" ++ Wording.property node s.name ++ ")"
          else Wording.property node s.name ++ "." ++ t.name)).map
            fun e => propertyKey e.1 ++ ": " ++ e.2 := by
      rw [List.map_map]
      refine forall₂_map_eq (fun t part hpart => ?_) hselected
      split at hpart
      · cases hpart
      · split at hpart
        · rename_i hformatted
          cases hpart
          simp [hformatted, Part.render, Wording.property, propertyRead, ← String.toList_inj]
        · rename_i hother
          cases hpart
          simp [hother, Part.render, Wording.property, propertyRead, String.append_assoc]
    rw [hmap _ htexts]
    exact .parts hfield hkind (mt List.isEmpty_iff.mpr hleaf) hnamed

mutual

-- The entry for a field mirrors it, as the step found under its response key is its own.
theorem project_mirrors {type : NodeType} {node : String} {plan : Plan} (s : Selection)
    (hdistinct : ∀ t ∈ s.nodes, (t.selections.map responseKey).Nodup)
    (hstep : ∀ step, plan.selectionStep? s.responseKey = some step →
      (type.field? s.name).bind Field.relation? = some step.incoming.relation ∧
        step.typeName = step.incoming.relation.target)
    (hstart : plan.StartsAt node) {d d' : Draft} {item : Item}
    (h : s.project setting type node plan d = .ok (item, d')) :
    Mirrors setting.catalog type node s item.render := by
  have hsize := sizeOf_selections_lt s
  have hsiblings := siblingsAgree_of_nodup (hdistinct s (mem_nodes_self s))
  have hbelow : ∀ t ∈ s.selections, ∀ u ∈ t.nodes, (u.selections.map responseKey).Nodup :=
    fun t ht u hu => hdistinct u (nodes_subset_of_mem ht hu)
  cases project_cases h with
  | typeName hname => exact .typeName hname
  | nodeId hname => exact .nodeId hname
  | shorthand hfield hkind halias =>
      rw [Item.render, (NodeType.field?_eq_some hfield).2]
      exact .shorthand hfield hkind halias
  | property hfield hkind halias =>
      rw [Item.render, (NodeType.field?_eq_some hfield).2]
      exact .property hfield hkind halias
  | compound hfield hkind hparts => exact parts_mirror hfield hkind hparts
  | @related field relation step query _ _ hfield hkind hfound hquery =>
      -- the step follows the relationship of the field
      obtain ⟨hown, htyped⟩ := hstep step hfound
      rw [hfield, Option.bind_some, Field.relation?, hkind] at hown
      obtain rfl : relation = step.incoming.relation := Option.some.inj hown
      obtain ⟨hnode, hkey, hsearch, hpattern⟩ := readWith_source rfl hquery
      obtain ⟨target, inner, _, _, _, e, f, htarget, hmake, hitems⟩ := readWith_planned hquery
      rw [hstart _ _ hfound] at hpattern
      rw [Item.render, asList_eq, ReadQuery.collect_eq hsearch hpattern hnode, hkey]
      exact .related hfield hkind (htyped ▸ htarget)
        (projectAll_mirrors s.selections hbelow (stepsAgree_make hsiblings htarget hmake)
          (Plan.make_startsAt hmake) hitems)
  | computed hfield hkind hshown hcall =>
      obtain ⟨bindings, htext⟩ := customCall_text hcall _
      rw [Item.render, htext]
      exact .computed hfield hkind (hshown.imp_left List.isEmpty_iff.mp)
  | computedNodes hfield hkind hshown hcall htarget hplan hitems =>
      obtain ⟨bindings, htext⟩ := customCall_text hcall true
      obtain ⟨hmake, -⟩ := planSelections_cases hplan
      have hselected : s.selections ≠ [] := by
        rintro hnil
        simp [isLeaf, hnil] at hshown
      rw [Item.render, htext, asList_eq, renderMap_eq]
      exact .computedNodes hfield hkind hselected htarget
        (projectAll_mirrors s.selections hbelow (stepsAgree_make hsiblings htarget hmake)
          (Plan.make_startsAt hmake) hitems)
termination_by sizeOf s

theorem projectAll_mirrors {type : NodeType} {node : String} {plan : Plan}
    (selections : List Selection)
    (hdistinct : ∀ s ∈ selections, ∀ t ∈ s.nodes, (t.selections.map responseKey).Nodup)
    (hsteps : StepsAgree type plan selections) (hstart : plan.StartsAt node) {d d' : Draft}
    {items : List Item}
    (h : projectAll setting type node plan selections d = .ok (items, d')) :
    MirrorsAll setting.catalog type node selections (Item.renderAll items) := by
  match selections, h with
  | [], h =>
      cases projectAll_nil_eq_ok.mp h
      exact .nil
  | s :: rest, h =>
      obtain ⟨item, more, e, hitem, hmore, rfl⟩ := projectAll_cons_cases h
      obtain ⟨hfirst, hothers⟩ := List.forall_mem_cons.mp hdistinct
      rw [Item.renderAll]
      exact .cons
        (project_mirrors s hfirst (hsteps s List.mem_cons_self) hstart hitem)
        (projectAll_mirrors rest hothers (fun t ht => hsteps t (List.mem_cons_of_mem s ht)) hstart
          hmore)
termination_by sizeOf selections

end

end Selection

end CypherCompiler
