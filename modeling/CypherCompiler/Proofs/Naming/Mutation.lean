import CypherCompiler.Proofs.Naming.Projection
import CypherCompiler.Proofs.Outcome.Mutation

namespace CypherCompiler

open Cypher

namespace Mutation

variable {type target : NodeType} {path : ParameterPath} {skip : List String} {d d' : Draft}

-- Properties are written under names of parameters only.
theorem properties_aliases {members : List (String × Json)} {written : List (String × Written)}
    (h : properties type path skip members d = .ok (written, d')) : d'.aliases = d.aliases := by
  induction members generalizing d written with
  | nil =>
      cases properties_nil_eq_ok.mp h
      rfl
  | cons m rest ih =>
      obtain ⟨-, hrest⟩ | ⟨-, p, more, e, hp, hmore, -⟩ := properties_cons_cases h
      · exact ih hrest
      · rw [ih hmore]
        obtain ⟨field, -, ⟨_, -, -, rfl⟩ | ⟨_, -, -, hvalue⟩ | ⟨_, -, -, hvalue⟩⟩ :=
          property?_cases hp
        · rfl
        · rw [(Prod.mk.inj (Drafting.value_eq_ok.mp hvalue).2).2]
        · rw [(Prod.mk.inj (Drafting.value_eq_ok.mp hvalue).2).2]

section

variable {parent node base : String} {relation : Relation} {index : Nat}
  {members : Json.Members} {clauses : List Clause}

-- A node is created under a name that was claimed for it.
theorem createRelated_accounts {clause : Clause}
    (h : createRelated parent (d.aliases.fresh base) relation target path members
      ⟨d.aliases.reserve (d.aliases.fresh base), d.parameters⟩ = .ok (clause, d')) :
    Accounts [] d.aliases d'.aliases clause.mentions := by
  obtain ⟨written, hwritten, rfl⟩ := createRelated_cases h
  rw [properties_aliases hwritten]
  exact .claim rfl

-- A node that is found by its keys is named by what was claimed for its clause.
theorem matchEach_accounts {operation : NestedOperation}
    {clause : String → List (String × String) → Clause}
    (hclause : ∀ name keys, ∃ m : Mention, m.name = name ∧ (clause name keys).mentions = [m])
    {objects : List Json.Members}
    (h : matchEach operation clause base target path index objects d = .ok (clauses, d')) :
    Accounts [] d.aliases d'.aliases (clauses.flatMap Clause.mentions) := by
  induction objects generalizing index d clauses with
  | nil =>
      cases matchEach_nil_eq_ok.mp h
      exact .refl _ _
  | cons object rest ih =>
      obtain ⟨keys, more, e, hkeys, hmore, rfl⟩ := matchEach_cons_cases h
      obtain ⟨-, -, -, haliases, -⟩ := KeyMatch.read_cases hkeys
      obtain ⟨m, hname, hmentions⟩ :=
        hclause (d.aliases.fresh (Alias.indexed base operation.name index)) keys
      have hrest := ih hmore
      rw [haliases] at hrest
      rw [List.flatMap_cons, hmentions]
      exact (Accounts.claim hname).append hrest

end

section

variable {catalog : Catalog}

mutual

theorem relations_accounts {type : NodeType} {node : String} {level : Level}
    {path : ParameterPath} {skip : List String} (members : List (String × Json))
    {clauses : List Clause} {d d' : Draft}
    (h : relations catalog type node level path skip members d = .ok (clauses, d')) :
    Accounts [] d.aliases d'.aliases (clauses.flatMap Clause.mentions) := by
  match members, h with
  | [], h =>
      cases relations_nil_eq_ok.mp h
      exact .refl _ _
  | (key, v) :: rest, h =>
      obtain ⟨here, more, e, hhere, hmore, rfl⟩ := relations_cons_cases h
      rw [List.flatMap_append]
      refine .append ?_ (relations_accounts rest hmore)
      obtain ⟨rfl, rfl, -⟩ | ⟨field, relation, -, -, -, -, hinput⟩ := hhere
      · exact .refl _ _
      · exact relationInput_accounts v hinput
termination_by sizeOf members

theorem relationInput_accounts {field : Field} {relation : Relation} {node : String}
    {level : Level} {path : ParameterPath} (v : Json) {clauses : List Clause} {d d' : Draft}
    (h : relationInput catalog field relation node level path v d = .ok (clauses, d')) :
    Accounts [] d.aliases d'.aliases (clauses.flatMap Clause.mentions) := by
  obtain ⟨target, -, houtcome⟩ := relationInput_cases h
  cases houtcome with
  | operations _ _ hclauses => exact operations_accounts _ hclauses
  | created _ _ hclause hmore =>
      exact (createRelated_accounts hclause).append (relations_accounts _ hmore)
  | createdEach _ _ hclauses => exact createEach_accounts _ hclauses
termination_by sizeOf v

theorem operations_accounts {field : Field} {relation : Relation} {target : NodeType}
    {node : String} {level : Level} {path : ParameterPath} (members : List (String × Json))
    {clauses : List Clause} {d d' : Draft}
    (h : operations catalog field relation target node level path members d =
      .ok (clauses, d')) :
    Accounts [] d.aliases d'.aliases (clauses.flatMap Clause.mentions) := by
  match members, h with
  | [], h =>
      cases operations_nil_eq_ok.mp h
      exact .refl _ _
  | (key, v) :: rest, h =>
      obtain ⟨objects, here, more, e, -, houtcome, hmore, rfl⟩ := operations_cons_cases h
      rw [List.flatMap_append]
      refine .append ?_ (operations_accounts rest hmore)
      cases houtcome with
      | create _ hclause hnested =>
          exact (createRelated_accounts hclause).append (relations_accounts _ hnested)
      | createEach _ hclauses => exact createEach_accounts _ hclauses
      | connect _ hclauses =>
          rw [connectEach_eq] at hclauses
          exact matchEach_accounts (fun _ _ => ⟨_, rfl, rfl⟩) hclauses
      | disconnect _ _ hclauses =>
          rw [disconnectEach_eq] at hclauses
          exact matchEach_accounts (fun _ _ => ⟨_, rfl, rfl⟩) hclauses
termination_by sizeOf members

theorem createEach_accounts {relation : Relation} {target : NodeType}
    {parent base key : String} {path : ParameterPath} {index : Nat} (items : List Json)
    {clauses : List Clause} {d d' : Draft}
    (h : createEach catalog relation target parent base key path index items d =
      .ok (clauses, d')) :
    Accounts [] d.aliases d'.aliases (clauses.flatMap Clause.mentions) := by
  match items, h with
  | [], h =>
      cases createEach_nil_eq_ok.mp h
      exact .refl _ _
  | item :: rest, h =>
      obtain ⟨-, hrest⟩ | ⟨members, clause, nested, more, e, f, rfl, hclause, hnested, hmore,
        rfl⟩ := createEach_cons_cases h
      · exact createEach_accounts rest hrest
      · rw [List.flatMap_append]
        exact ((createRelated_accounts hclause).append (relations_accounts members hnested)).append
          (createEach_accounts rest hmore)
termination_by sizeOf items

end

end

variable {setting : Setting} {node : String} {s : Selection}

theorem readArgument_aliases {argument : Option Json} {keys : List (String × String)}
    (h : KeyMatch.readArgument type path argument d = .ok (keys, d')) :
    d'.aliases = d.aliases := by
  obtain ⟨-, -, -, haliases, -⟩ := KeyMatch.read_cases h
  exact haliases

theorem result_accounts (hcatalog : setting.catalog.HasDistinctHops) {items : List Item}
    (h : result setting type node s d = .ok (items, d')) :
    Accounts [] d.aliases d'.aliases (Item.mentionsOfAll items) := by
  obtain ⟨plan, e, hplan, hitems⟩ := result_cases h
  have hnames := Selection.planSelections_introduces hplan
  have hinner := Selection.projectAll_accounts hcatalog s.selections hitems
  have hall : Accounts [] d.aliases d'.aliases ([] ++ Item.mentionsOfAll items) :=
    .within hnames (by simp) (List.Subset.refl _) hinner
  exact hall

-- Apart from the mutated node, a mutation gives new names only.
theorem statement_accounts (hcatalog : setting.catalog.HasDistinctHops) {operation : Operation}
    {statement : Statement}
    (h : Mutation.statement setting type operation s d = .ok (statement, d')) :
    ∃ mentions, statement.mentions = .root (Alias.root type.name) :: mentions ∧
      Accounts [] (d.aliases.reserve (Alias.root type.name)) d'.aliases mentions := by
  cases statement_cases h with
  | create _ hwritten hrelated hitems =>
      refine ⟨_, rfl, ?_⟩
      have hclauses := relations_accounts _ hrelated
      rw [properties_aliases hwritten] at hclauses
      exact hclauses.append (result_accounts hcatalog hitems)
  | @change _ keys members skip written related _ found _ c e f _ hoperation hkeys _ hwritten
      hrelated hitems =>
      refine ⟨_, rfl, ?_⟩
      have hclauses := relations_accounts _ hrelated
      rw [properties_aliases hwritten, readArgument_aliases hkeys] at hclauses
      have hfound : found.mentions = [] := by
        obtain ⟨-, -, rfl⟩ | ⟨-, -, rfl⟩ := hoperation <;> rfl
      have hset : (if written.isEmpty then [] else [Clause.set (Alias.root type.name)
          written]).flatMap Clause.mentions = [] := by
        split <;> rfl
      rw [List.cons_append, List.flatMap_cons, List.flatMap_append, hfound, hset]
      exact hclauses.append (result_accounts hcatalog hitems)
  | @delete _ items _ e _ hkeys hitems =>
      refine ⟨_, rfl, ?_⟩
      have hresult := result_accounts hcatalog hitems
      have haliases : e.aliases = d.aliases.reserve (Alias.root type.name) :=
        readArgument_aliases hkeys
      rw [← haliases]
      exact (Accounts.claim rfl).append hresult

end Mutation

end CypherCompiler
