import CypherCompiler.Proofs.Authorization.Permitted

namespace CypherCompiler

open Cypher Selection

namespace Mutation

theorem result_entries {setting : Setting} {type : NodeType}
    (htype : setting.catalog.type? type.name = some type) {node : String} {s : Selection}
    (hsiblings : s.SiblingsAgree) {items : List Item} {d d' : Draft}
    (h : result setting type node s d = .ok (items, d')) :
    ∃ plan e, StepsAgree type plan s.selections ∧
      projectAll setting type node plan s.selections e = .ok (items, d') := by
  obtain ⟨plan, e, hplan, hitems⟩ := result_cases h
  obtain ⟨hmake, -⟩ := planSelections_cases hplan
  exact ⟨plan, e, stepsAgree_make hsiblings htype hmake, hitems⟩

end Mutation

namespace Request

variable {r : Request} {type : NodeType}

-- The map of a statement shows the selected fields of the type that the request starts from.
theorem statement_entries {setting : Setting}
    (htype : setting.catalog.type? type.name = some type) (hsiblings : r.field.SiblingsAgree)
    {statement : Statement} {d d' : Draft}
    (h : r.statement setting type d = .ok (statement, d')) :
    statement.items = [] ∨ ∃ node plan e f, StepsAgree type plan r.field.selections ∧
      projectAll setting type node plan r.field.selections e = .ok (statement.items, f) := by
  obtain ⟨-, query, rfl, hquery⟩ | ⟨-, query, rfl, -⟩ | hmutation := statement_cases h
  · obtain ⟨target, plan, e, f, htarget, hagree, hitems⟩ := readWith_entries hsiblings hquery
    obtain rfl : target = type := Option.some.inj (htarget.symm.trans htype)
    exact .inr ⟨_, plan, e, f, hagree, hitems⟩
  · exact .inl rfl
  · generalize r.operation = operation at hmutation
    cases Mutation.statement_cases hmutation with
    | create _ _ _ hitems | change _ _ _ _ _ hitems | delete _ hitems =>
        obtain ⟨plan, e, hagree, hitems⟩ := Mutation.result_entries htype hsiblings hitems
        exact .inr ⟨_, plan, e, _, hagree, hitems⟩

-- A compiled request reads no field whose scopes were not granted, as long as selections that
-- share a response key select the same field.
theorem compile_reads_permitted {catalog : Catalog} {config : Config}
    (hscopes : config.authScopes = true) (hsiblings : ∀ s ∈ r.field.nodes, s.SiblingsAgree)
    (htype : r.rootType catalog config = .ok type) {plan : StatementPlan}
    (h : r.compile catalog config = .ok plan) {field : Field}
    (hreads : plan.statement.ReadsField catalog type r.field.selections field) :
    r.grants.permits field.scopes = true := by
  obtain ⟨found, d, hfound, hauthorized, hstatement, -⟩ := compile_cases h
  obtain rfl : found = type := Except.ok.inj (hfound.symm.trans htype)
  have hall : authorizeAll catalog r.grants found r.field.selections = .ok () := by
    have hauthorize := hauthorized hscopes
    unfold authorize at hauthorize
    split at hauthorize
    · cases hauthorize
    · exact hauthorize
  obtain ⟨t, item, hitem, hreads⟩ := hreads
  obtain hnone | ⟨node, inner, e, f, hagree, hitems⟩ := statement_entries
    (type?_of_rootType htype) (hsiblings r.field (mem_nodes_self r.field)) hstatement
  · simp [hnone] at hitem
  · obtain ⟨ht, _, _, hproject⟩ := mem_zip_projectAll hitems hitem
    exact project_permitted (authorizeAll_mem hall ht) (hagree t ht)
      (fun u hu => hsiblings u (nodes_subset_of_mem ht hu)) hproject hreads

-- Movies with a rating that asks for a scope, and persons with one that everybody may read.
def movieRating : Field :=
  ⟨"rating", .scalar .int, false, false, false, false, none, ["read:rating"], []⟩

def personRating : Field := ⟨"rating", .scalar .int, false, false, false, false, none, [], []⟩

def ratedMovieType : NodeType where
  name := "Movie"
  additionalLabels := []
  scopes := .unrestricted
  fields :=
    [⟨"title", .scalar .string, false, true, false, true, none, [], []⟩, movieRating,
      ⟨"sequels", .relationship ⟨"FOLLOWED_BY", .out, "Movie"⟩, true, false, false, false, none,
        [], []⟩,
      ⟨"actors", .relationship ⟨"ACTED_IN", .into, "Person"⟩, true, false, false, false, none, [],
        []⟩]
  primaryKey := some "title"
  fields_nodup := by decide
  primaryKey_scalar := by decide

def ratedPersonType : NodeType where
  name := "Person"
  additionalLabels := []
  scopes := .unrestricted
  fields := [⟨"name", .scalar .string, false, true, false, true, none, [], []⟩, personRating]
  primaryKey := some "name"
  fields_nodup := by decide
  primaryKey_scalar := by decide

def ratings : Catalog where
  types := [ratedMovieType, ratedPersonType]
  types_nodup := by decide
  closed := by decide

-- The titles of the sequels of all movies under one key, the ratings of their actors under
-- another.
def ratingsRequest (sequelsKey actorsKey : String) : Request :=
  ⟨.query,
    ⟨"movies", none, [],
      [⟨"sequels", some sequelsKey, [], [⟨"title", none, [], []⟩]⟩,
        ⟨"actors", some actorsKey, [], [⟨"rating", none, [], []⟩]⟩]⟩,
    some "Movie", [], ⟨[]⟩⟩

def scopedConfig : Config := { Config.default with authScopes := true }

theorem compile_reads_permitted_ratingsRequest :
    ∃ plan, (ratingsRequest "next" "cast").compile ratings scopedConfig = .ok plan ∧
      plan.statement.ReadsField ratings ratedMovieType
        (ratingsRequest "next" "cast").field.selections personRating ∧
      (ratingsRequest "next" "cast").grants.permits personRating.scopes = true := by
  have hsiblings : ∀ s ∈ (ratingsRequest "next" "cast").field.nodes, s.SiblingsAgree := by
    simp [ratingsRequest, nodes, nodesOfAll, SiblingsAgree, responseKey]
  obtain ⟨plan, hplan, hreads⟩ : ∃ plan,
      (ratingsRequest "next" "cast").compile ratings scopedConfig = .ok plan ∧
      plan.statement.ReadsField ratings ratedMovieType
        (ratingsRequest "next" "cast").field.selections personRating :=
    ⟨_, rfl, _, _, .tail _ (.head _), .belowRelated rfl rfl (.head _) (.property rfl rfl)⟩
  exact ⟨plan, hplan, hreads, compile_reads_permitted rfl hsiblings rfl hplan hreads⟩

-- Under one response key the actors are taken for sequels, and so the rating that is read is
-- that of a movie.
theorem compile_reads_forbidden :
    ∃ plan, (ratingsRequest "related" "related").compile ratings scopedConfig = .ok plan ∧
      plan.statement.ReadsField ratings ratedMovieType
        (ratingsRequest "related" "related").field.selections movieRating ∧
      (ratingsRequest "related" "related").grants.permits movieRating.scopes = false :=
  ⟨_, rfl, ⟨_, _, .tail _ (.head _), .belowRelated rfl rfl (.head _) (.property rfl rfl)⟩,
    by decide⟩

end Request

end CypherCompiler
