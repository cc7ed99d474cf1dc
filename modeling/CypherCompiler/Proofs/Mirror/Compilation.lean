import CypherCompiler.Proofs.Authorization.Compilation
import CypherCompiler.Proofs.Hoisting.Compilation
import CypherCompiler.Proofs.Mirror.Projection

namespace CypherCompiler

open Cypher Selection

namespace Cypher.Statement

-- The map that a statement makes, with the node that it is made of. A count makes none.
def map? : Statement → Option (String × List Item)
  | .read query => some (query.node, query.items)
  | .count _ => none
  | .write _ node items _ => some (node, items)
  | .delete node _ items _ => some (node.name, items)

theorem occurs_map {statement : Statement} {node : String} {items : List Item}
    (h : statement.map? = some (node, items)) :
    Text.Occurs (Wording.shown node (Item.renderAll items)) statement.render := by
  have hresult : ∀ key, Text.Occurs (Wording.shown node (Item.renderAll items))
      (Wording.result node (Item.renderAll items) key) := by
    intro key
    exact (((Text.Occurs.refl _).append_left "RETURN ").append_right " AS ").append_right _
  rw [render_eq]
  cases statement with
  | read query =>
      cases h
      have hread : Text.Occurs (Wording.shown query.node (Item.renderAll query.items))
          (Wording.read query.source query.node (Item.renderAll query.items) query.key query.order
            query.window) :=
        (hresult query.key).intercalate " " (by simp)
      exact hread.intercalate " " (List.mem_singleton_self _)
  | count query => cases h
  | write clauses _ _ key =>
      cases h
      exact (hresult key).intercalate " " (by simp [Wording.lines])
  | delete matched deleted _ key =>
      cases h
      have hwith : Text.Occurs (Wording.shown matched.name (Item.renderAll items))
          ("WITH " ++ quoteIdentifier matched.name ++ " AS " ++ quoteIdentifier deleted ++ ", " ++
            Wording.shown matched.name (Item.renderAll items) ++ " AS " ++
            quoteIdentifier matched.name) :=
        (((Text.Occurs.refl _).append_left _).append_right _).append_right _
      exact hwith.intercalate " " (by simp [Wording.lines])

end Cypher.Statement

namespace Request

variable {r : Request} {type : NodeType} {setting : Setting} {d d' : Draft}

theorem statement_mirrors (htype : setting.catalog.type? type.name = some type)
    (hdistinct : ∀ s ∈ r.field.nodes, (s.selections.map responseKey).Nodup)
    (hoperation : r.operation ≠ .count) {statement : Statement}
    (h : r.statement setting type d = .ok (statement, d')) :
    ∃ items, statement.map? = some (Alias.root type.name, items) ∧
      MirrorsAll setting.catalog type (Alias.root type.name) r.field.selections
        (Item.renderAll items) := by
  have hsiblings := siblingsAgree_of_nodup (hdistinct r.field (mem_nodes_self r.field))
  have hbelow : ∀ s ∈ r.field.selections, ∀ t ∈ s.nodes, (t.selections.map responseKey).Nodup :=
    fun s hs t ht => hdistinct t (nodes_subset_of_mem hs ht)
  have hresult : ∀ {items : List Item} {e f : Draft},
      Mutation.result setting type (Alias.root type.name) r.field e = .ok (items, f) →
      MirrorsAll setting.catalog type (Alias.root type.name) r.field.selections
        (Item.renderAll items) := by
    intro items e f hitems
    obtain ⟨plan, _, hplan, hitems⟩ := Mutation.result_cases hitems
    obtain ⟨hmake, -⟩ := planSelections_cases hplan
    exact projectAll_mirrors r.field.selections hbelow (stepsAgree_make hsiblings htype hmake)
      (Plan.make_startsAt hmake) hitems
  obtain ⟨-, query, rfl, hquery⟩ | ⟨hcount, -⟩ | hmutation := statement_cases h
  · obtain ⟨target, plan, _, _, _, e, f, htarget, hmake, hitems⟩ := readWith_planned hquery
    obtain rfl : target = type := Option.some.inj (htarget.symm.trans htype)
    have hnode : query.node = Alias.root target.name := by
      obtain ⟨_, _, _, _, _, _, -, -, -, -, -, rfl⟩ := readWith_cases hquery
      rfl
    refine ⟨query.items, by rw [Statement.map?, hnode], ?_⟩
    exact projectAll_mirrors r.field.selections hbelow (stepsAgree_make hsiblings htype hmake)
      (Plan.make_startsAt hmake) hitems
  · exact absurd hcount hoperation
  · generalize r.operation = operation at hmutation
    cases Mutation.statement_cases hmutation with
    | create _ _ _ hitems | change _ _ _ _ _ hitems | delete _ hitems =>
        exact ⟨_, rfl, hresult hitems⟩

-- The map of a statement mirrors what was selected, and so does the map of every query in it.
theorem compile_mirrors {catalog : Catalog} {config : Config} (hoperation : r.operation ≠ .count)
    (hdistinct : ∀ s ∈ r.field.nodes, (s.selections.map responseKey).Nodup)
    {plan : StatementPlan} (h : r.compile catalog config = .ok plan) :
    ∃ type items, r.rootType catalog config = .ok type ∧
      plan.statement.map? = some (Alias.root type.name, items) ∧
      Text.Occurs (Wording.shown (Alias.root type.name) (Item.renderAll items)) plan.text ∧
      MirrorsAll catalog type (Alias.root type.name) r.field.selections (Item.renderAll items) := by
  obtain ⟨type, d, htype, -, hstatement, -⟩ := compile_cases h
  obtain ⟨items, hmap, hmirrors⟩ :=
    statement_mirrors (type?_of_rootType htype) hdistinct hoperation hstatement
  exact ⟨type, items, htype, hmap, Statement.occurs_map hmap, hmirrors⟩

-- The title of each movie, and its actors under another key.
theorem compile_mirrors_castRequest :
    ∃ plan items, castRequest.compile movies .default = .ok plan ∧
      plan.statement.map? = some ("movie", items) ∧
      Item.renderAll items =
        [".title", "cast: COLLECT \x7b MATCH (`movie`)<-[:`ACTED_IN`]-(`movie_cast`:`Person`) " ++
          "RETURN `movie_cast` \x7b.name\x7d AS `cast` \x7d"] ∧
      Text.Occurs (Wording.shown "movie" (Item.renderAll items)) plan.text ∧
      MirrorsAll movies movieType "movie" castRequest.field.selections (Item.renderAll items) := by
  have hdistinct : ∀ s ∈ castRequest.field.nodes, (s.selections.map responseKey).Nodup := by
    simp [castRequest, nodes, nodesOfAll, responseKey]
  obtain ⟨plan, hplan⟩ : ∃ plan, castRequest.compile movies .default = .ok plan := ⟨_, rfl⟩
  obtain ⟨type, items, htype, hmap, hoccurs, hmirrors⟩ :=
    compile_mirrors (by decide) hdistinct hplan
  obtain rfl : movieType = type := Except.ok.inj htype
  cases hplan
  cases hmap
  exact ⟨_, _, rfl, rfl, by decide +kernel, hoccurs, hmirrors⟩

end Request

end CypherCompiler
