import CypherCompiler.Proofs.Cypher.RenderedReferences
import CypherCompiler.Proofs.Hoisting.Mutation
import CypherCompiler.Proofs.Outcome.Compilation

namespace CypherCompiler

open Cypher Selection Text

namespace Request

variable {r : Request} {setting : Setting} {type : NodeType} {d d' : Draft}

theorem statement_hoisted (hcatalog : setting.catalog.HasPlainNames)
    (htype : type.HasPlainNames) (haliases : HavePlainAliases r.field.nodes)
    {statement : Statement} (h : r.statement setting type d = .ok (statement, d')) :
    Hoisted d.parameters d'.parameters statement.references ∧
      AreWords statement.constituents := by
  have hnode : IsWord (⟨Alias.root type.name, type.name, none⟩ : Root).node :=
    Alias.isWord_root htype.name
  have hroot := ParameterPath.isPlain_root
  obtain ⟨-, query, rfl, hquery⟩ | ⟨-, query, rfl, hquery⟩ | hmutation := statement_cases h
  · rw [Statement.references, Statement.constituents]
    apply readWith_hoisted hcatalog hroot hnode haliases.selections hquery
    intro target plan e f items htarget hplan hitems
    exact projectAll_hoisted hcatalog htarget hnode hplan r.field.selections haliases.selections
      hitems
  · obtain ⟨search, e, groupBy, read, source, hsearch, -, hread, hsource, rfl⟩ :=
      countQuery_cases hquery
    refine ⟨?_, by simp [AreWords, Statement.constituents]⟩
    rw [Statement.references, references_source hsource]
    exact (searchCall_hoisted hroot hsearch).trans (planRead_hoisted hcatalog hroot hread)
  · exact Mutation.statement_hoisted hcatalog htype haliases hmutation

-- The caller's variables are the only ones that are there before anything is read.
theorem mem_initialDraft {n : String} (h : n ∈ r.initialDraft.parameters.names) :
    n = cypherParamsName := by
  unfold initialDraft at h
  split at h
  · simp [Draft.empty, Parameters.empty, Parameters.names, Json.Members.keys] at h
  · simpa [Parameters.empty, Parameters.share, Parameters.contains, Json.Members.contains,
      Parameters.names, Json.Members.keys] using h

-- The names that a reader finds behind the dollar signs of the text are those of the
-- parameters. Only the caller's variables may stand among them without being referred to.
theorem bareReferences_text {catalog : Catalog} (hcatalog : catalog.HasPlainNames)
    (haliases : HavePlainAliases r.field.nodes) {config : Config} {plan : StatementPlan}
    (h : r.compile catalog config = .ok plan) (n : String) :
    (n ∈ bareReferences plan.text → n ∈ plan.parameters.names) ∧
      (n ∈ plan.parameters.names → n = cypherParamsName ∨ n ∈ bareReferences plan.text) := by
  obtain ⟨type, d, htype, -, hstatement, hparameters⟩ := compile_cases h
  obtain ⟨hhoisted, hconstituents⟩ :=
    statement_hoisted hcatalog (hcatalog.type (type?_of_rootType htype)) haliases hstatement
  have hread := Statement.mem_bareReferences_render hhoisted.words hconstituents n
  rw [StatementPlan.text, hread, hparameters, hhoisted.mem_iff]
  refine ⟨.inr, ?_⟩
  rintro (hinitial | hn)
  · exact .inl (mem_initialDraft hinitial)
  · exact .inr hn

-- A filter on movies and on their actors, with the actors shown under another name.
def castRequest : Request :=
  ⟨.query,
    ⟨"movies", none,
      [("filter", .obj [("actors", .obj [("name", .str "Ann")]), ("title", .str "Up")]),
        ("first", .ofInt 3)],
      [⟨"title", none, [], []⟩, ⟨"actors", some "cast", [], [⟨"name", none, [], []⟩]⟩]⟩,
    some "Movie", [], ⟨[]⟩⟩

theorem bareReferences_text_castRequest :
    ∃ plan, castRequest.compile movies .default = .ok plan ∧
      (∀ n ∈ bareReferences plan.text, n ∈ plan.parameters.names) ∧
      ∀ n ∈ plan.parameters.names, n = cypherParamsName ∨ n ∈ bareReferences plan.text := by
  have haliases : HavePlainAliases castRequest.field.nodes := by
    simp [HavePlainAliases, castRequest, nodes, nodesOfAll]
    decide
  obtain ⟨plan, hplan⟩ : ∃ plan, castRequest.compile movies .default = .ok plan := ⟨_, rfl⟩
  exact ⟨plan, hplan,
    fun n => (bareReferences_text movies_hasPlainNames haliases hplan n).1,
    fun n => (bareReferences_text movies_hasPlainNames haliases hplan n).2⟩

end Request

end CypherCompiler
