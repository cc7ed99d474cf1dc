import CypherCompiler.Proofs.Outcome.Filter
import CypherCompiler.Proofs.Text.Word

namespace CypherCompiler

open Text

-- A type whose names a statement may hold without quotes.
structure NodeType.HasPlainNames (t : NodeType) : Prop where
  name : isPlainIdentifier t.name = true
  field : ∀ f ∈ t.fields, isPlainIdentifier f.name = true
  argument : ∀ f ∈ t.fields, ∀ a ∈ f.arguments, isPlainIdentifier a = true

def Catalog.HasPlainNames (c : Catalog) : Prop := ∀ t ∈ c.types, t.HasPlainNames

theorem Catalog.HasPlainNames.type {c : Catalog} (h : c.HasPlainNames) {name : String}
    {t : NodeType} (ht : c.type? name = some t) : t.HasPlainNames :=
  h t (Catalog.type?_eq_some ht).1

-- The names of fields are all that a filter spells.
def NodeType.HasPlainFields (t : NodeType) : Prop :=
  ∀ f ∈ t.fields, isPlainIdentifier f.name = true

def Catalog.HasPlainFields (c : Catalog) : Prop := ∀ t ∈ c.types, t.HasPlainFields

theorem Catalog.HasPlainFields.type {c : Catalog} (h : c.HasPlainFields) {name : String}
    {t : NodeType} (ht : c.type? name = some t) : t.HasPlainFields :=
  h t (Catalog.type?_eq_some ht).1

theorem Catalog.HasPlainNames.fields {c : Catalog} (h : c.HasPlainNames) : c.HasPlainFields :=
  fun t ht => (h t ht).field

theorem NodeType.HasPlainFields.isWord {t : NodeType} (h : t.HasPlainFields) {name : String}
    {f : Field} (hf : t.field? name = some f) : IsWord name := by
  obtain ⟨hmem, rfl⟩ := NodeType.field?_eq_some hf
  exact isWord_of_isPlainIdentifier (h f hmem)

theorem NodeType.HasPlainNames.isWord {t : NodeType} (h : t.HasPlainNames) {name : String}
    {f : Field} (hf : t.field? name = some f) : IsWord name :=
  HasPlainFields.isWord h.field hf

theorem NodeType.HasPlainNames.areWords_arguments {t : NodeType} (h : t.HasPlainNames)
    {name : String} {f : Field} (hf : t.field? name = some f) : AreWords f.arguments :=
  fun a ha => isWord_of_isPlainIdentifier (h.argument f (NodeType.field?_eq_some hf).1 a ha)

-- Movies and the persons who act in them.
def movieType : NodeType where
  name := "Movie"
  additionalLabels := []
  scopes := .unrestricted
  fields :=
    [⟨"title", .scalar .string, false, true, false, true, none, [], []⟩,
      ⟨"released", .scalar .int, false, false, false, false, none, [], []⟩,
      ⟨"actors", .relationship ⟨"ACTED_IN", .into, "Person"⟩, true, false, false, false, none, [],
        []⟩]
  primaryKey := some "title"
  fields_nodup := by decide
  primaryKey_scalar := by decide

def personType : NodeType where
  name := "Person"
  additionalLabels := []
  scopes := .unrestricted
  fields :=
    [⟨"name", .scalar .string, false, true, false, true, none, [], []⟩,
      ⟨"movies", .relationship ⟨"ACTED_IN", .out, "Movie"⟩, true, false, false, false, none, [],
        []⟩]
  primaryKey := some "name"
  fields_nodup := by decide
  primaryKey_scalar := by decide

def movies : Catalog where
  types := [movieType, personType]
  types_nodup := by decide
  closed := by decide

theorem movies_hasPlainNames : movies.HasPlainNames := by
  intro t ht
  simp only [movies, List.mem_cons, List.not_mem_nil, or_false] at ht
  rcases ht with rfl | rfl
  · exact ⟨by decide, by decide, by decide⟩
  · exact ⟨by decide, by decide, by decide⟩

namespace FilterKey

theorem isWord_endings : ∀ ending ∈ endings, IsWord ("_" ++ ending) := by
  have hall : (endings.map ("_" ++ ·)).all (·.toList.all isIdentifierRest) = true := by decide
  intro ending hending
  exact isWord_of_all (List.all_eq_true.mp hall _ (List.mem_map_of_mem hending))

theorem isWord_combinator (c : Combinator) : IsWord c.name := by
  cases c <;> exact isWord_of_all (by decide)

-- A key that a filter accepts is a word.
theorem isWord_of_read? {type : NodeType} (hplain : type.HasPlainFields) {key : String}
    {k : FilterKey} (h : read? type key = some k) : IsWord key := by
  obtain ⟨c, hname, -⟩ | ⟨field, ending, -, ⟨-, hfield⟩ | ⟨e, name, -, hending, hbefore,
    hfield⟩⟩ := read?_cases h
  · exact hname ▸ isWord_combinator c
  · exact hplain.isWord hfield
  · exact isWord_of_beforeSuffix? (isWord_endings e hending) hbefore (hplain.isWord hfield)

end FilterKey

end CypherCompiler
