import CypherCompiler.Proofs.Collision.Mutation
import CypherCompiler.Proofs.Hoisting.Compilation

namespace CypherCompiler

open Cypher Json Selection Text

-- Without a collision before it, a step that draws from unused names ends without one.
theorem Draws.neverCollides {σ α : Type} {names : σ → List String} {R : Region}
    {x : StateT σ (Except RequestError) α} (h : Draws names R x) {s : σ}
    (hs : Unused names R s) : NeverCollides (x s) := by
  have hx := h s hs
  generalize x s = r at hx
  cases hx with
  | ok _ => exact .ok _
  | error he => exact .error he

theorem ambient_notMem_readNames : tokens cypherParamsName ∉ readNames [] := by
  have htaken : cypherParamsName ∈ takenFieldNames ∧
      tokens cypherParamsName = [cypherParamsName] := by decide
  -- one token can be a test or an argument, but nothing below a filter
  rintro ((⟨name, ⟨-, htest⟩, heq⟩ | ⟨first, more, heq⟩) | ⟨x, hx, heq⟩)
  · obtain rfl := tokens_injective heq
    rcases htest with hid | ⟨-, hfree⟩
    · exact absurd hid (by decide)
    · exact hfree htaken.1
  · have hlength := congrArg List.length (htaken.2.symm.trans heq)
    simp at hlength
  · obtain rfl := (List.cons.inj (htaken.2.symm.trans heq)).1
    exact absurd hx (by decide)

theorem ambient_notMem_childNames (node : String) (keys : List String) :
    tokens cypherParamsName ∉ eachOf (childNames [node]) keys := by
  have hsingle : tokens cypherParamsName = [cypherParamsName] := by decide
  rintro ⟨key, -, first, more, -, -, heq⟩
  cases hsingle.symm.trans heq

theorem ambient_notMem_namesBelow {first : String} (start : List String) :
    tokens cypherParamsName ∉ namesBelow (first :: start) := by
  have hsingle : tokens cypherParamsName = [cypherParamsName] := by decide
  rintro ⟨next, more, heq⟩
  cases start with
  | nil => cases hsingle.symm.trans heq
  | cons => cases hsingle.symm.trans heq

namespace Request

variable {r : Request}

-- The caller's variables, which are there from the start, are in no region.
theorem initialDraft_unused {R : Region} (h : tokens cypherParamsName ∉ R) :
    Unused (fun d : Draft => d.parameters.names) R r.initialDraft :=
  ⟨h, fun _ hn => mem_initialDraft hn ▸ h⟩

-- The words with which a request asks: the keys of its arguments, and what its selections ask with.
def words (r : Request) : List String :=
  membersKeys r.field.arguments ++ (nodesOfAll r.field.selections).flatMap Selection.words

theorem statement_neverCollides {setting : Setting}
    (hcatalog : setting.catalog.HasSimpleNames r.words) {type : NodeType}
    (htype : type.HasSimpleNames r.words) (hroot : type.HasSimpleRoot)
    (hdistinct : ∀ s ∈ r.field.nodes, s.HasDistinctKeys)
    (hsimple : ∀ s ∈ nodesOfAll r.field.selections, s.HasSimpleKey) :
    NeverCollides (r.statement setting type r.initialDraft) := by
  have hkeys := hdistinct r.field (mem_nodes_self r.field)
  have hwords : membersKeys r.field.arguments ⊆ r.words := List.subset_append_left _ _
  have hbelow : ∀ s ∈ nodesOfAll r.field.selections, s.NamedApart r.words := by
    intro s hs
    refine ⟨hsimple s hs, hdistinct s (nodesOfAll_selections_subset r.field hs), ?_⟩
    intro word hword
    exact List.mem_append_right _ (List.mem_flatMap.mpr ⟨s, hs, hword⟩)
  have hfilter : Alias.root type.name ≠ Argument.filter := by
    intro h
    exact hroot.free (by simp [h])
  have hmutation (operation : Operation) : NeverCollides
      (Mutation.statement setting type operation r.field r.initialDraft) := by
    refine (Mutation.statement_draws hcatalog htype hroot hkeys hwords hbelow
      operation).neverCollides
      (initialDraft_unused ?_)
    rintro (h | h | h)
    · exact ambient_notMem_namesBelow [] h
    · exact ambient_notMem_namesBelow [] h
    · exact ambient_notMem_childNames _ _ h
  unfold Request.statement
  cases r.operation with
  | query =>
      have hquery := readQuery_draws type.name hcatalog hroot.simple hfilter hkeys hwords hbelow
      refine (hquery.before fun _ => draws_pure _).neverCollides (initialDraft_unused ?_)
      rintro (h | h)
      · exact ambient_notMem_readNames h
      · exact ambient_notMem_childNames _ _ h
  | count =>
      have hcount := countQuery_draws hcatalog hwords hkeys.arguments type
      exact (hcount.before fun _ => draws_pure _).neverCollides
        (initialDraft_unused ambient_notMem_readNames)
  | _ => exact hmutation _

-- Where the names that a request asks for are single tokens and siblings have distinct keys, no two
-- values of it are given one name.
theorem compile_ne_parameterCollision {catalog : Catalog} {config : Config}
    (hcatalog : catalog.HasSimpleNames r.words)
    (hroot : ∀ type, r.rootType catalog config = .ok type → type.HasSimpleRoot)
    (hdistinct : ∀ s ∈ r.field.nodes, s.HasDistinctKeys)
    (hsimple : ∀ s ∈ nodesOfAll r.field.selections, s.HasSimpleKey) (name : String) :
    r.compile catalog config ≠ .error (.parameterCollision name) := by
  suffices h : NeverCollides (r.compile catalog config) from h name
  unfold compile
  apply (r.rootType_neverCollides catalog config).bind
  intro type hfound
  have htype := hcatalog.type (type?_of_rootType hfound)
  have hstatement : NeverCollides (r.statement
      ⟨catalog, config.strictArguments, r.cypherParams⟩ type r.initialDraft) :=
    statement_neverCollides hcatalog htype (hroot type hfound) hdistinct hsimple
  split
  · exact (r.authorize_neverCollides catalog type).bind fun _ _ =>
      hstatement.bind fun _ _ => .ok _
  · exact hstatement.bind fun _ _ => .ok _

theorem movies_hasSimpleNames (words : List String) : movies.HasSimpleNames words := by
  intro t ht f hf _
  simp only [movies, List.mem_cons, List.not_mem_nil, or_false] at ht
  rcases ht with rfl | rfl <;>
    simp only [movieType, personType, List.mem_cons, List.not_mem_nil, or_false] at hf <;>
    rcases hf with rfl | rfl | rfl <;> exact ⟨by decide, by decide, by decide, by decide⟩

theorem compile_ne_parameterCollision_castRequest :
    (∃ plan, castRequest.compile movies .default = .ok plan) ∧
      castRequest.compile movies .default ≠ .error (.parameterCollision "filter_title") := by
  have hdistinct : ∀ s ∈ castRequest.field.nodes, s.HasDistinctKeys := by
    simp [castRequest, nodes, nodesOfAll, hasDistinctKeys_iff, responseKey,
      Json.HasDistinctKeys, MembersHaveDistinctKeys, Members.keys, Json.ofInt]
  have hsimple : ∀ s ∈ nodesOfAll castRequest.field.selections, s.HasSimpleKey := by
    simp [castRequest, nodes, nodesOfAll, hasSimpleKey_iff, responseKey]
    decide
  have hroot : ∀ type, castRequest.rootType movies .default = .ok type → type.HasSimpleRoot := by
    rintro type ⟨⟩
    exact ⟨by decide, by decide⟩
  exact ⟨⟨_, rfl⟩,
    compile_ne_parameterCollision (movies_hasSimpleNames _) hroot hdistinct hsimple _⟩

def filteredPersonType : NodeType where
  name := "Person"
  additionalLabels := []
  scopes := .unrestricted
  fields :=
    [⟨"name", .scalar .string, false, true, false, true, none, [], []⟩,
      ⟨"filter_name", .scalar .string, false, false, false, false, none, [], []⟩]
  primaryKey := some "name"
  fields_nodup := by decide
  primaryKey_scalar := by decide

def filteredPeople : Catalog where
  types := [filteredPersonType]
  types_nodup := by decide
  closed := by decide

-- A field asked for by its name, and a filter on another field.
def filterNameRequest : Request :=
  ⟨.query,
    ⟨"people", none, [("filter_name", .str "x"), ("filter", .obj [("name", .str "y")])],
      [⟨"name", none, [], []⟩]⟩,
    some "Person", [], ⟨[]⟩⟩

-- A field may be named as a path below the filter is.
theorem compile_parameterCollision :
    (∀ s ∈ filterNameRequest.field.nodes, s.HasDistinctKeys) ∧
      filterNameRequest.compile filteredPeople .default =
        .error (.parameterCollision "filter_name") := by
  constructor
  · simp [filterNameRequest, nodes, nodesOfAll, hasDistinctKeys_iff, responseKey,
      Json.HasDistinctKeys, MembersHaveDistinctKeys, Members.keys]
  · rfl

end Request

end CypherCompiler
