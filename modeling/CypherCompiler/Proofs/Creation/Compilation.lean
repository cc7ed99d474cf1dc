import CypherCompiler.Proofs.Creation.Relations
import CypherCompiler.Proofs.Cypher.Wording
import CypherCompiler.Proofs.Outcome.Compilation

namespace CypherCompiler

open Cypher CreatedObject Mutation

-- The objects that are created with the data of a request, below the node of the data itself.
def Request.createdObjects (catalog : Catalog) (type : NodeType) (data : Json.Members) :
    List CreatedObject :=
  ofMembers catalog type true dataPath data

-- The clauses that follow that of the root create one node for each object below the data, in the
-- order of the data, and every stored member of an object has a parameter of its own. What else
-- they do is to connect nodes that there are.
structure Request.CreatesData (catalog : Catalog) (type : NodeType) (data : Json.Members)
    (related : List Clause) (parameters : Parameters) : Prop where
  others : ∀ clause ∈ related, clause.creation? = none → clause.IsConnect
  cascade : Cascade (Alias.root type.name) (createdObjects catalog type data)
    (related.filterMap Clause.creation?)
  in_preorder : (related.filterMap Clause.creation?).map
      (fun c => (c.relation, c.node.labels, c.node.properties)) =
    (preorder (createdObjects catalog type data)).map
      fun o => (o.relation, o.type.labels, writtenMembers o.type o.path o.members)
  names_nodup : (Alias.root type.name ::
    (related.filterMap Clause.creation?).map fun c => c.node.name).Nodup
  parent_bound : ∀ before c after, related.filterMap Clause.creation? = before ++ c :: after →
    c.parent = Alias.root type.name ∨ ∃ b ∈ before, b.node.name = c.parent
  supplied : suppliedMembers type dataPath data ++
    (preorder (createdObjects catalog type data)).flatMap CreatedObject.supplied ⊆
      parameters.members
  parameters_nodup : ((suppliedMembers type dataPath data ++
    (preorder (createdObjects catalog type data)).flatMap CreatedObject.supplied).map
      Prod.fst).Nodup

namespace Request

variable {r : Request} {catalog : Catalog} {config : Config} {type : NodeType}

-- A create writes its data without losing or repeating any of it. Its text consists of the clauses,
-- each on its own, and of what is returned.
theorem compile_createsData (hoperation : r.operation = .create)
    (htype : r.rootType catalog config = .ok type) {plan : StatementPlan}
    (h : r.compile catalog config = .ok plan) :
    ∃ data related items, r.field.argument? Argument.data = some (.obj data) ∧
      plan.statement = .write
        (.create ⟨Alias.root type.name, type.labels, writtenMembers type dataPath data⟩ :: related)
        (Alias.root type.name) items r.field.responseKey ∧
      plan.text = String.intercalate " "
        (("CREATE " ++ Wording.created
            ⟨Alias.root type.name, type.labels, writtenMembers type dataPath data⟩) ::
          related.map Wording.clause ++
          [Wording.result (Alias.root type.name) (Item.renderAll items) r.field.responseKey]) ∧
      CreatesData catalog type data related plan.parameters := by
  obtain ⟨found, d, hfound, -, hstatement, hparameters⟩ := compile_cases h
  obtain rfl : found = type := Except.ok.inj (hfound.symm.trans htype)
  have hcreate : Mutation.statement ⟨catalog, config.strictArguments, r.cypherParams⟩ found
      .create r.field r.initialDraft = .ok (plan.statement, d) := by
    unfold Request.statement at hstatement
    rwa [hoperation] at hstatement
  have houtcome := Mutation.statement_cases hcreate
  have htext : plan.text = String.intercalate " " (Wording.lines plan.statement) :=
    plan.statement.render_eq
  generalize plan.statement = statement at houtcome htext
  cases houtcome with
  | @create data written related items _ e f _ hdata hwritten hrelated hitems =>
      have haliases := properties_aliases hwritten
      obtain ⟨rfl, hroot⟩ := properties_creates hwritten
      have hcreates := relations_creates (by simp) data hrelated
      obtain ⟨inner, g, hplan, hprojected⟩ := result_cases hitems
      obtain ⟨-, hplanned⟩ := Selection.planSelections_cases hplan
      have hshown := Selection.projectAll_supplies _ hprojected
      rw [hplanned] at hshown
      have hall := (hroot.trans hcreates.supplied).then_any hshown
      refine ⟨data, related, items, hdata, rfl, htext, hcreates.others, hcreates.cascade,
        hcreates.cascade.eq_preorder, ?_, ?_, ?_, hall.nodup⟩
      · -- the name of the root was reserved before any other was given out
        refine List.nodup_cons.mpr ⟨?_, hcreates.names.nodup⟩
        intro hname
        apply hcreates.names.fresh _ hname
        rw [haliases]
        exact AliasRegistry.mem_reserve.mpr (.inl rfl)
      · exact fun before c after hc => hcreates.cascade.parent_bound hc
      · rw [hparameters]
        exact hall.subset
  | change hother =>
      obtain ⟨hupdate, -⟩ | ⟨hmerge, -⟩ := hother
      · cases hupdate
      · cases hmerge

-- A person with two movies, one of them with its own actor.
def nestedCreateRequest : Request :=
  ⟨.create,
    ⟨"createPerson", none,
      [("data", .obj [("name", .str "Ann"),
        ("movies", .arr [
          .obj [("title", .str "Up"), ("actors", .obj [("name", .str "Bob")])],
          .obj [("title", .str "Down"), ("released", .ofInt 2001)]])])],
      [⟨"name", none, [], []⟩]⟩,
    some "Person", [], ⟨[]⟩⟩

theorem compile_createsData_nestedCreateRequest :
    ∃ plan data related items,
      nestedCreateRequest.compile movies .default = .ok plan ∧
      plan.statement = .write
        (.create ⟨"person", ["Person"], writtenMembers personType dataPath data⟩ :: related)
        "person" items "createPerson" ∧
      CreatesData movies personType data related plan.parameters ∧
      (preorder (createdObjects movies personType data)).length = 3 ∧
      plan.text = "CREATE (`person`:`Person` \x7bname: $data_name\x7d) " ++
        "CREATE (`person`)-[:`ACTED_IN`]->(`person_movies_0`:`Movie` " ++
          "\x7btitle: $data_movies_0_title\x7d) " ++
        "CREATE (`person_movies_0`)<-[:`ACTED_IN`]-(`person_movies_0_actors`:`Person` " ++
          "\x7bname: $data_movies_0_actors_name\x7d) " ++
        "CREATE (`person`)-[:`ACTED_IN`]->(`person_movies_1`:`Movie` " ++
          "\x7btitle: $data_movies_1_title, released: $data_movies_1_released\x7d) " ++
        "RETURN `person` \x7b.name\x7d AS `createPerson`" := by
  obtain ⟨plan, hplan⟩ : ∃ plan, nestedCreateRequest.compile movies .default = .ok plan :=
    ⟨_, rfl⟩
  have htype : nestedCreateRequest.rootType movies .default = .ok personType := rfl
  obtain ⟨data, related, items, hdata, hstatement, htext, hcreates⟩ :=
    compile_createsData rfl htype hplan
  cases hdata
  refine ⟨plan, _, related, items, hplan, hstatement, hcreates, rfl, ?_⟩
  rw [htext]
  cases hplan
  cases hstatement
  decide +kernel

end Request

end CypherCompiler
