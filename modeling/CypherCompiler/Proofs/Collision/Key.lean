import CypherCompiler.Compilation.Projection
import CypherCompiler.Proofs.Collision.Token
import CypherCompiler.Proofs.Outcome.Filter
import CypherCompiler.Proofs.Text.Word

namespace CypherCompiler

open Text

-- What a relationship may end in as the key of a filter.
def FilterKey.quantifierEndings : List String := quantifiers.map Prod.fst

-- Names with a meaning of their own next to the names of fields: those of combinators, the
-- endings of relationships, and that of the caller's variables.
def takenFieldNames : List String :=
  [Combinator.and, .or, .not].map Combinator.name ++ FilterKey.quantifierEndings ++
    [cypherParamsName]

-- A field whose names are single tokens with no other meaning.
structure Field.HasSimpleNames (f : Field) : Prop where
  name : IsSimple f.name
  free : f.name ∉ takenFieldNames
  argument : ∀ a ∈ f.arguments, IsSimple a
  arguments_nodup : f.arguments.Nodup

-- A type after which the root of a statement is named, by a single token with no other meaning.
structure NodeType.HasSimpleRoot (t : NodeType) : Prop where
  simple : IsSimple (Alias.root t.name)
  free : Alias.root t.name ∉ [Argument.filter, Argument.data, Argument.key]

-- Whether one of some words stands for a field: it is the name of the field, or goes on behind it.
def AsksFor (words : List String) (name : String) : Prop :=
  ∃ word ∈ words, tokens name <+: tokens word

instance (words : List String) (name : String) : Decidable (AsksFor words name) :=
  inferInstanceAs (Decidable (∃ word ∈ words, tokens name <+: tokens word))

-- Nobody asks for a field that is named as the path to another one is.
example : AsksFor ["filter", "name_in"] "name" ∧ ¬ AsksFor ["filter", "name_in"] "filter_name" := by
  decide

-- A type in which the fields that the words stand for have simple names.
def NodeType.HasSimpleNames (t : NodeType) (words : List String) : Prop :=
  ∀ f ∈ t.fields, AsksFor words f.name → f.HasSimpleNames

def Catalog.HasSimpleNames (c : Catalog) (words : List String) : Prop :=
  ∀ t ∈ c.types, t.HasSimpleNames words

theorem Catalog.HasSimpleNames.type {c : Catalog} {words : List String}
    (h : c.HasSimpleNames words) {name : String} {t : NodeType} (ht : c.type? name = some t) :
    t.HasSimpleNames words :=
  h t (Catalog.type?_eq_some ht).1

theorem AsksFor.of_mem {words : List String} {name : String} (h : name ∈ words) :
    AsksFor words name :=
  ⟨name, h, List.prefix_rfl⟩

theorem NodeType.HasSimpleNames.field {type : NodeType} {words : List String}
    (h : type.HasSimpleNames words) {name : String} {f : Field} (hf : type.field? name = some f)
    (hasks : AsksFor words name) : f.HasSimpleNames := by
  obtain ⟨hmem, rfl⟩ := NodeType.field?_eq_some hf
  exact h f hmem hasks

namespace FilterKey

variable {type : NodeType} {words : List String}

-- How the keys of a filter are made of tokens: a field comes first, its ending follows.
inductive Spelled (type : NodeType) : FilterKey → List String → Prop
  | combinator (c : Combinator) : Spelled type (.combinator c) [c.name]
  | comparison {field : Field} {op : Comparator} {ending : List String}
      (hfield : type.field? field.name = some field) (hfree : field.name ∉ takenFieldNames)
      (hkind : field.relation? = none) :
      Spelled type (.comparison field op) (field.name :: ending)
  | relationship {field : Field} {relation : Relation} {quantifier : Quantifier}
      {ending : List String} (hfield : type.field? field.name = some field)
      (hfree : field.name ∉ takenFieldNames) (hkind : field.relation? = some relation)
      (hending : ending = [] ∨ ∃ e ∈ quantifierEndings, ending = [e]) :
      Spelled type (.relationship field relation quantifier) (field.name :: ending)

theorem quantifierEndings_isSimple : ∀ e ∈ quantifierEndings, IsSimple e := by
  decide

theorem combinator_isSimple (c : Combinator) : IsSimple c.name := by
  cases c <;> decide

theorem spelled_of_read? (htype : type.HasSimpleNames words) {key : String} (hkey : key ∈ words)
    {k : FilterKey} (h : read? type key = some k) : Spelled type k (tokens key) := by
  obtain ⟨c, rfl, rfl⟩ | ⟨field, ending, hclassify, hfield⟩ := read?_cases h
  · rw [(combinator_isSimple c).tokens_eq]
    exact .combinator c
  · -- the key goes on behind the name of its field, which is therefore a simple one
    have hwritten : type.field? field.name = some field ∧
        tokens key = tokens field.name ++ (ending.map tokens).getD [] := by
      obtain ⟨rfl, hfound⟩ | ⟨e, name, rfl, -, hbefore, hfound⟩ := hfield
      · obtain ⟨-, rfl⟩ := NodeType.field?_eq_some hfound
        exact ⟨hfound, (List.append_nil _).symm⟩
      · obtain ⟨-, rfl⟩ := NodeType.field?_eq_some hfound
        refine ⟨hfound, ?_⟩
        rw [eq_append_of_beforeSuffix? hbefore, ← String.append_assoc, tokens_join]
        rfl
    obtain ⟨hfound, htokens⟩ := hwritten
    have hplain := htype.field hfound ⟨key, hkey, htokens ▸ List.prefix_append _ _⟩
    rw [htokens, hplain.name.tokens_eq, List.singleton_append]
    obtain ⟨relation, quantifier, hkind, hlookup, rfl⟩ | ⟨op, hkind, rfl⟩ :=
      classify?_cases hclassify
    · refine .relationship hfound hplain.free hkind ?_
      cases ending with
      | none => exact .inl rfl
      | some e =>
          obtain ⟨before, after, hmem, -⟩ := List.lookup_eq_some_iff.mp (hlookup e rfl)
          have hending : e ∈ quantifierEndings := by
            rw [quantifierEndings, hmem]
            simp
          exact .inr ⟨e, hending, (quantifierEndings_isSimple e hending).tokens_eq⟩
    · exact .comparison hfound hplain.free hkind

-- The tokens that may follow a key within the name of a parameter.
def Continues : FilterKey → List String → Prop
  | .combinator _, _ => True
  | .comparison .., rest => rest = []
  | .relationship .., rest => ∃ first more, rest = first :: more ∧ first ∉ quantifierEndings

-- Keys are told apart by the names that start with them.
theorem eq_of_continues (htype : type.HasSimpleNames words) {key key' : String}
    (hmem : key ∈ words) (hmem' : key' ∈ words) {k k' : FilterKey} (h : read? type key = some k)
    (h' : read? type key' = some k') {rest rest' : List String}
    (hrest : k.Continues rest) (hrest' : k'.Continues rest')
    (heq : tokens key ++ rest = tokens key' ++ rest') : key = key' := by
  apply tokens_injective
  have hkey := spelled_of_read? htype hmem h
  have hkey' := spelled_of_read? htype hmem' h'
  have hother : ∀ (c : Combinator) {field : Field}, field.name ∉ takenFieldNames →
      c.name ≠ field.name := by
    intro c field hfree hname
    apply hfree
    rw [← hname]
    cases c <;> decide
  have hsame : ∀ {field field' : Field}, type.field? field.name = some field →
      type.field? field'.name = some field' → field.name = field'.name → field = field' := by
    intro field field' hfield hfield' hname
    rw [hname, hfield'] at hfield
    exact (Option.some.inj hfield).symm
  generalize tokens key = written at hkey heq ⊢
  generalize tokens key' = written' at hkey' heq ⊢
  -- the first token is the name of a combinator or of a field, and a field is of one kind
  cases hkey with
  | combinator c =>
      cases hkey' with
      | combinator c' => rw [(List.cons.inj heq).1]
      | comparison _ hfree _ => exact (hother c hfree (List.cons.inj heq).1).elim
      | relationship _ hfree _ _ => exact (hother c hfree (List.cons.inj heq).1).elim
  | @comparison field op ending hfield hfree hkind =>
      cases hkey' with
      | combinator c' => exact (hother c' hfree (List.cons.inj heq).1.symm).elim
      | comparison _ _ _ =>
          cases hrest
          cases hrest'
          simpa using heq
      | relationship hfield' _ hkind' _ =>
          have hsame := hsame hfield hfield' (List.cons.inj heq).1
          rw [hsame, hkind'] at hkind
          cases hkind
  | relationship hfield hfree hkind hending =>
      cases hkey' with
      | combinator c' => exact (hother c' hfree (List.cons.inj heq).1.symm).elim
      | comparison hfield' _ hkind' =>
          have hsame := hsame hfield hfield' (List.cons.inj heq).1
          rw [hsame, hkind'] at hkind
          cases hkind
      | relationship hfield' _ _ hending' =>
          obtain ⟨hname, htail⟩ := List.cons.inj heq
          obtain ⟨first, more, rfl, hfirst⟩ := hrest
          obtain ⟨first', more', rfl, hfirst'⟩ := hrest'
          rw [hname]
          -- an ending of one key cannot be where the other one goes on
          obtain rfl | ⟨e, he, rfl⟩ := hending <;> obtain rfl | ⟨e', he', rfl⟩ := hending'
          · rfl
          · exact (hfirst ((List.cons.inj htail).1 ▸ he')).elim
          · exact (hfirst' ((List.cons.inj htail).1 ▸ he)).elim
          · rw [(List.cons.inj htail).1]

end FilterKey

end CypherCompiler
