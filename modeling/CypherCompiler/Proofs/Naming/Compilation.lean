import CypherCompiler.Proofs.Naming.Mutation
import CypherCompiler.Proofs.Outcome.Compilation

namespace CypherCompiler

open Cypher

namespace Cypher

variable {s : Statement}

theorem Mention.hop?_eq_some {m : Mention} {h : Hop} : m.hop? = some h ↔ m = .hop h := by
  cases m <;> simp [hop?]

theorem Statement.mem_hops {h : Hop} : h ∈ s.hops ↔ .hop h ∈ s.mentions := by
  simp [hops, List.mem_filterMap, Mention.hop?_eq_some]

theorem Statement.mem_otherNames {name : String} :
    name ∈ s.otherNames ↔ ∃ m ∈ s.mentions, m.hop? = none ∧ m.name = name := by
  simp [otherNames, and_assoc]

end Cypher

namespace Request

variable {r : Request} {catalog : Catalog} {config : Config}

-- The root of a statement is named first, and then new names only.
theorem statement_accounts {setting : Setting} (hcatalog : setting.catalog.HasDistinctHops)
    {type : NodeType} (htype : setting.catalog.type? type.name = some type) {d d' : Draft}
    {statement : Statement} (h : r.statement setting type d = .ok (statement, d')) :
    ∃ mentions, statement.mentions = .root (Alias.root type.name) :: mentions ∧
      Accounts [] (d.aliases.reserve (Alias.root type.name)) d'.aliases mentions := by
  obtain ⟨-, query, rfl, hquery⟩ | ⟨-, query, rfl, hquery⟩ | hmutation := statement_cases h
  · refine ⟨query.mentions, ?_, Selection.readQuery_accounts hcatalog hquery⟩
    obtain ⟨head, e, f, items, order, window, -, -, -, -, -, rfl⟩ :=
      Selection.readWith_cases hquery
    rfl
  · refine ⟨query.source.mentions, ?_, Selection.countQuery_accounts hcatalog htype hquery⟩
    obtain ⟨_, _, _, _, _, -, -, -, -, rfl⟩ := Selection.countQuery_cases hquery
    rfl
  · exact Mutation.statement_accounts hcatalog hmutation

-- Every name of a statement has one meaning.
theorem mention_unique (hcatalog : catalog.HasDistinctHops) {plan : StatementPlan}
    (h : r.compile catalog config = .ok plan) :
    ∀ m ∈ plan.statement.mentions, ∀ n ∈ plan.statement.mentions, m.name = n.name → m = n := by
  obtain ⟨type, d, htype, -, hstatement, -⟩ := compile_cases h
  obtain ⟨mentions, hmentions, entries, hentries, hknown⟩ :=
    statement_accounts hcatalog (type?_of_rootType htype) hstatement
  have hmem : ∀ m ∈ mentions, m ∈ entries := fun m hm => (hknown m hm).resolve_left (by simp)
  have hroot : ∀ m ∈ mentions, m.name ≠ Alias.root type.name := by
    intro m hm heq
    exact hentries.fresh m (hmem m hm) (heq ▸ AliasRegistry.mem_reserve.mpr (.inl rfl))
  rw [hmentions]
  intro m hm n hn heq
  rcases List.mem_cons.mp hm with rfl | hm <;> rcases List.mem_cons.mp hn with rfl | hn
  · rfl
  · exact (hroot n hn heq.symm).elim
  · exact (hroot m hm heq).elim
  · exact hentries.single m (hmem m hm) n (hmem n hn) heq

-- An alias never names two hops, and never both a hop and something else.
theorem compile_hops_apart (hcatalog : catalog.HasDistinctHops) {plan : StatementPlan}
    (h : r.compile catalog config = .ok plan) :
    (∀ hop ∈ plan.statement.hops, ∀ other ∈ plan.statement.hops, hop.child = other.child →
      hop.parent = other.parent ∧ hop.relation = other.relation) ∧
    ∀ hop ∈ plan.statement.hops, hop.child ∉ plan.statement.otherNames := by
  have hunique := mention_unique hcatalog h
  constructor
  · intro hop hhop other hother hchild
    have hsame : Mention.hop hop = .hop other :=
      hunique _ (Statement.mem_hops.mp hhop) _ (Statement.mem_hops.mp hother) hchild
    cases hsame
    exact ⟨rfl, rfl⟩
  · intro hop hhop hname
    obtain ⟨m, hm, hnone, heq⟩ := Statement.mem_otherNames.mp hname
    have hsame : m = .hop hop := hunique m hm _ (Statement.mem_hops.mp hhop) heq
    rw [hsame] at hnone
    cases hnone

-- Movies with the actors and all their movies, where one actor is asked for and another one is
-- not wanted.
def filmographyRequest : Request :=
  ⟨.query,
    ⟨"movies", none,
      [("filter", .obj
        [("actors_none", .obj [("name", .str "Al")]),
          ("actors", .obj [("movies", .obj [("title", .str "Heat")])])])],
      [⟨"actors", none, [], [⟨"movies", none, [], [⟨"title", none, [], []⟩]⟩]⟩]⟩,
    some "Movie", [], ⟨[]⟩⟩

theorem compile_hops_apart_filmographyRequest :
    ∃ plan, filmographyRequest.compile movies .default = .ok plan ∧
      plan.statement.hops =
        [⟨"movie", ⟨"ACTED_IN", .into, "Person"⟩, "movie_actors_2"⟩,
          ⟨"movie", ⟨"ACTED_IN", .into, "Person"⟩, "movie_actors"⟩,
          ⟨"movie_actors", ⟨"ACTED_IN", .out, "Movie"⟩, "movie_actors_movies"⟩,
          ⟨"movie", ⟨"ACTED_IN", .into, "Person"⟩, "movie_actors"⟩,
          ⟨"movie_actors", ⟨"ACTED_IN", .out, "Movie"⟩, "movie_actors_movies_2"⟩] ∧
      (∀ hop ∈ plan.statement.hops, ∀ other ∈ plan.statement.hops, hop.child = other.child →
        hop.parent = other.parent ∧ hop.relation = other.relation) ∧
      ∀ hop ∈ plan.statement.hops, hop.child ∉ plan.statement.otherNames := by
  obtain ⟨plan, hplan⟩ : ∃ plan, filmographyRequest.compile movies .default = .ok plan := ⟨_, rfl⟩
  refine ⟨plan, hplan, ?_, compile_hops_apart movies_hasDistinctHops hplan⟩
  cases hplan
  rfl

end Request

end CypherCompiler
