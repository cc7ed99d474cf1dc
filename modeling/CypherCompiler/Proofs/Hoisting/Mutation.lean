import CypherCompiler.Proofs.Hoisting.Projection
import CypherCompiler.Proofs.Outcome.Mutation

namespace CypherCompiler

open Cypher Selection Text

theorem KeyMatch.read_hoisted {type : NodeType} (htype : type.HasPlainNames)
    {path : ParameterPath} (hpath : path.IsPlain) {members : Json.Members}
    {keys : List (String × String)} {d d' : Draft}
    (h : read type path members d = .ok (keys, d')) :
    Hoisted d.parameters d'.parameters (keys.map Prod.snd) := by
  obtain ⟨checked, hchecked, rfl, -, hmembers⟩ := read_cases h
  refine ⟨?_, ?_⟩
  · intro n
    simp [Parameters.names, Json.Members.keys, hmembers]
  · intro n hn
    simp only [List.map_map, List.mem_map, Function.comp_apply] at hn
    obtain ⟨entry, hentry, rfl⟩ := hn
    obtain ⟨field, _, hfield, -⟩ := values_scalar hchecked entry hentry
    exact (hpath.child (htype.isWord hfield)).isWord_name

theorem NestedOperation.isWord_name (operation : NestedOperation) : IsWord operation.name := by
  cases operation <;> exact isWord_of_all (by decide)

theorem NestedOperation.isWord_of_ofName? {key : String} {operation : NestedOperation}
    (h : NestedOperation.ofName? key = some operation) : IsWord key := by
  rw [NestedOperation.eq_name_of_ofName? h]
  exact operation.isWord_name

namespace Mutation

variable {catalog : Catalog} {type target : NodeType} {path : ParameterPath} {d d' : Draft}

theorem property?_hoisted (htype : type.HasPlainNames) (hpath : path.IsPlain) {key : String}
    {v : Json} {p : Option (String × Written)}
    (h : property? type path key v d = .ok (p, d')) :
    Hoisted d.parameters d'.parameters (p.toList.flatMap fun w => w.2.references) := by
  obtain ⟨field, hfield, hkind⟩ := property?_cases h
  have hword := (hpath.child (htype.isWord hfield)).isWord_name
  obtain ⟨_, -, rfl, rfl⟩ | ⟨scalar, -, rfl, hv⟩ | ⟨compound, -, rfl, hv⟩ := hkind
  · exact .refl _
  · obtain ⟨-, hr⟩ := Drafting.value_eq_ok.mp hv
    cases hr
    exact .insert hword
  · obtain ⟨-, hr⟩ := Drafting.value_eq_ok.mp hv
    cases hr
    cases field.list with
    | true => exact .insert hword
    | false => exact .insert hword

theorem properties_hoisted (htype : type.HasPlainNames) (hpath : path.IsPlain)
    {skip : List String} {members : Json.Members} {written : List (String × Written)}
    (h : properties type path skip members d = .ok (written, d')) :
    Hoisted d.parameters d'.parameters (written.flatMap fun w => w.2.references) := by
  induction members generalizing d written with
  | nil =>
      cases properties_nil_eq_ok.mp h
      exact .refl _
  | cons m rest ih =>
      obtain ⟨-, hrest⟩ | ⟨-, p, more, e, hp, hmore, rfl⟩ := properties_cons_cases h
      · exact ih hrest
      · rw [List.flatMap_append]
        exact (property?_hoisted htype hpath hp).trans (ih hmore)

section

variable {parent base : String} {relation : Relation} {index : Nat}

theorem createRelated_hoisted (htarget : target.HasPlainNames) (hpath : path.IsPlain)
    {node : String} {members : Json.Members} {clause : Clause}
    (h : createRelated parent node relation target path members d = .ok (clause, d')) :
    Hoisted d.parameters d'.parameters clause.references := by
  obtain ⟨written, hwritten, rfl⟩ := createRelated_cases h
  exact properties_hoisted htarget hpath hwritten

-- The keys of a node are taken out before its clause refers to them.
theorem matchEach_hoisted (htarget : target.HasPlainNames) (hpath : path.IsPlain)
    {operation : NestedOperation} {clause : String → List (String × String) → Clause}
    (hclause : ∀ name keys, (clause name keys).references = keys.map Prod.snd)
    {objects : List Json.Members} {clauses : List Clause}
    (h : matchEach operation clause base target path index objects d = .ok (clauses, d')) :
    Hoisted d.parameters d'.parameters (clauses.flatMap Clause.references) := by
  induction objects generalizing d index clauses with
  | nil =>
      cases matchEach_nil_eq_ok.mp h
      exact .refl _
  | cons members rest ih =>
      obtain ⟨keys, more, e, hkeys, hmore, rfl⟩ := matchEach_cons_cases h
      have hindexed : (path.indexed operation.name index).IsPlain :=
        hpath.indexed operation.isWord_name index
      rw [List.flatMap_cons, hclause]
      exact (KeyMatch.read_hoisted htarget hindexed hkeys).trans (ih hmore)

end

mutual

-- Related nodes are created, connected and disconnected with exactly what is taken out for
-- them.
theorem relations_hoisted (hcatalog : catalog.HasPlainNames) {type : NodeType} {node : String}
    {level : Level} {path : ParameterPath} (hpath : path.IsPlain) {skip : List String}
    (htype : type.HasPlainNames) (members : List (String × Json)) {d d' : Draft}
    {clauses : List Clause}
    (h : relations catalog type node level path skip members d = .ok (clauses, d')) :
    Hoisted d.parameters d'.parameters (clauses.flatMap Clause.references) := by
  match members, h with
  | [], h =>
      cases relations_nil_eq_ok.mp h
      exact .refl _
  | (key, v) :: rest, h =>
      obtain ⟨here, more, e, hhere, hmore, rfl⟩ := relations_cons_cases h
      have hothers := relations_hoisted hcatalog hpath htype rest hmore
      rw [List.flatMap_append]
      obtain ⟨rfl, rfl, -⟩ | ⟨field, relation, hfield, -, -, -, hinput⟩ := hhere
      · exact hothers
      · have hname := htype.isWord hfield
        rw [← (NodeType.field?_eq_some hfield).2] at hname
        exact (relationInput_hoisted hcatalog hpath hname v hinput).trans hothers
termination_by sizeOf members

theorem relationInput_hoisted (hcatalog : catalog.HasPlainNames) {field : Field}
    {relation : Relation} {node : String} {level : Level} {path : ParameterPath}
    (hpath : path.IsPlain) (hname : IsWord field.name) (v : Json) {d d' : Draft}
    {clauses : List Clause}
    (h : relationInput catalog field relation node level path v d = .ok (clauses, d')) :
    Hoisted d.parameters d'.parameters (clauses.flatMap Clause.references) := by
  obtain ⟨target, htarget, houtcome⟩ := relationInput_cases h
  have hplain := hcatalog.type htarget
  have hchild := hpath.child hname
  cases houtcome with
  | operations _ _ hclauses => exact operations_hoisted hcatalog hplain hchild _ hclauses
  | created _ _ hclause hmore =>
      exact (createRelated_hoisted hplain hchild hclause).trans
        (relations_hoisted hcatalog hchild hplain _ hmore)
  | createdEach _ _ hclauses =>
      exact createEach_hoisted hcatalog hplain hpath hname _ hclauses
termination_by sizeOf v

theorem operations_hoisted (hcatalog : catalog.HasPlainNames) {field : Field}
    {relation : Relation} {target : NodeType} (htarget : target.HasPlainNames) {node : String}
    {level : Level} {path : ParameterPath} (hpath : path.IsPlain)
    (members : List (String × Json)) {d d' : Draft} {clauses : List Clause}
    (h : operations catalog field relation target node level path members d =
      .ok (clauses, d')) :
    Hoisted d.parameters d'.parameters (clauses.flatMap Clause.references) := by
  match members, h with
  | [], h =>
      cases operations_nil_eq_ok.mp h
      exact .refl _
  | (key, v) :: rest, h =>
      obtain ⟨objects, here, more, e, -, houtcome, hmore, rfl⟩ := operations_cons_cases h
      rw [List.flatMap_append]
      refine Hoisted.trans ?_ (operations_hoisted hcatalog htarget hpath rest hmore)
      cases houtcome with
      | create hkey hclause hnested =>
          have hindexed := hpath.indexed (NestedOperation.isWord_of_ofName? hkey) 0
          exact (createRelated_hoisted htarget hindexed hclause).trans
            (relations_hoisted hcatalog hindexed htarget _ hnested)
      | createEach hkey hclauses =>
          have hword := NestedOperation.isWord_of_ofName? hkey
          exact createEach_hoisted hcatalog htarget hpath hword _ hclauses
      | connect _ hclauses =>
          rw [connectEach_eq] at hclauses
          exact matchEach_hoisted htarget hpath (fun _ _ => rfl) hclauses
      | disconnect _ _ hclauses =>
          rw [disconnectEach_eq] at hclauses
          exact matchEach_hoisted htarget hpath (fun _ _ => rfl) hclauses
termination_by sizeOf members

theorem createEach_hoisted (hcatalog : catalog.HasPlainNames) {relation : Relation}
    {target : NodeType} (htarget : target.HasPlainNames) {parent base key : String}
    {path : ParameterPath} (hpath : path.IsPlain) (hkey : IsWord key) {index : Nat}
    (items : List Json) {d d' : Draft} {clauses : List Clause}
    (h : createEach catalog relation target parent base key path index items d =
      .ok (clauses, d')) :
    Hoisted d.parameters d'.parameters (clauses.flatMap Clause.references) := by
  match items, h with
  | [], h =>
      cases createEach_nil_eq_ok.mp h
      exact .refl _
  | item :: rest, h =>
      obtain ⟨-, hrest⟩ | ⟨members, clause, nested, more, e, f, rfl, hclause, hnested, hmore,
        rfl⟩ := createEach_cons_cases h
      · exact createEach_hoisted hcatalog htarget hpath hkey rest hrest
      · have hindexed := hpath.indexed hkey index
        rw [List.cons_append, List.flatMap_cons, List.flatMap_append]
        exact (createRelated_hoisted htarget hindexed hclause).trans
          ((relations_hoisted hcatalog hindexed htarget members hnested).trans
            (createEach_hoisted hcatalog htarget hpath hkey rest hmore))
termination_by sizeOf items

end

variable {setting : Setting} {node : String} {s : Selection}

theorem result_hoisted (hcatalog : setting.catalog.HasPlainNames) (htype : type.HasPlainNames)
    (hnode : IsWord node) (haliases : HavePlainAliases s.nodes) {items : List Item}
    (h : result setting type node s d = .ok (items, d')) :
    Hoisted d.parameters d'.parameters (Item.referencesOfAll items) ∧
      AreWords (Item.constituentsOfAll items) := by
  obtain ⟨plan, e, hplan, hitems⟩ := result_cases h
  obtain ⟨hsteps, hparameters⟩ := planSelections_isWord hcatalog hnode haliases.selections hplan
  rw [← hparameters]
  exact projectAll_hoisted hcatalog htype hnode hsteps s.selections haliases.selections hitems

theorem isPlain_dataPath : dataPath.IsPlain :=
  ParameterPath.isPlain_root.child (isWord_of_all (by decide))

theorem isPlain_keyPath : keyPath.IsPlain :=
  ParameterPath.isPlain_root.child (isWord_of_all (by decide))

-- A mutation refers to exactly what is taken out for its keys, its data and its result.
theorem statement_hoisted (hcatalog : setting.catalog.HasPlainNames)
    (htype : type.HasPlainNames) (haliases : HavePlainAliases s.nodes) {operation : Operation}
    {statement : Statement}
    (h : Mutation.statement setting type operation s d = .ok (statement, d')) :
    Hoisted d.parameters d'.parameters statement.references ∧
      AreWords statement.constituents := by
  have hnode := Alias.isWord_root htype.name
  cases statement_cases h with
  | create _ hwritten hrelated hitems =>
      obtain ⟨hresult, hconstituents⟩ := result_hoisted hcatalog htype hnode haliases hitems
      have hproperties := properties_hoisted htype isPlain_dataPath hwritten
      have hclauses := hproperties.trans
        (relations_hoisted hcatalog isPlain_dataPath htype _ hrelated)
      exact ⟨hclauses.trans hresult, hconstituents⟩
  | @change operation keys members skip written related items found _ c e f _ hoperation hkeys _
      hwritten hrelated hitems =>
      obtain ⟨hresult, hconstituents⟩ := result_hoisted hcatalog htype hnode haliases hitems
      have hmatched := KeyMatch.read_hoisted htype isPlain_keyPath hkeys
      have hproperties := properties_hoisted htype isPlain_dataPath hwritten
      have hfound : found.references = keys.map Prod.snd := by
        obtain ⟨-, -, rfl⟩ | ⟨-, -, rfl⟩ := hoperation <;> rfl
      have hset : (if written.isEmpty then [] else
          [Clause.set (Alias.root type.name) written]).flatMap Clause.references =
            written.flatMap fun w => w.2.references := by
        cases written with
        | nil => rfl
        | cons w rest => simp [Clause.references]
      have hclauses := (hmatched.trans hproperties).trans
        (relations_hoisted hcatalog isPlain_dataPath htype _ hrelated)
      refine ⟨?_, hconstituents⟩
      rw [Statement.references, List.cons_append, List.flatMap_cons, List.flatMap_append, hfound,
        hset, ← List.append_assoc]
      exact hclauses.trans hresult
  | delete hkeys hitems =>
      obtain ⟨hresult, hconstituents⟩ := result_hoisted hcatalog htype hnode haliases hitems
      exact ⟨(KeyMatch.read_hoisted htype isPlain_keyPath hkeys).trans hresult, hconstituents⟩

end Mutation

end CypherCompiler
