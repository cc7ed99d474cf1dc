import CypherCompiler.Schema.Basic
import CypherCompiler.Schema.Error

namespace CypherCompiler

-- The edge as it is declared. A missing member is a fault of the schema, not of its text.
structure RelationDeclaration where
  name : Option String
  direction : Option String
  deriving DecidableEq, Repr

structure FieldDeclaration where
  name : String
  typeName : String
  list : Bool
  required : Bool
  id : Bool
  unique : Bool
  search : Option String
  scopes : List String
  relation : Option RelationDeclaration
  statement : Option String
  arguments : List String
  deriving DecidableEq, Repr

structure TypeDeclaration where
  name : String
  additionalLabels : List String
  primaryKey : Option String
  scopes : AccessScopes
  fields : List FieldDeclaration
  deriving DecidableEq, Repr

structure SchemaDeclaration where
  name : Option String
  types : List TypeDeclaration
  deriving DecidableEq, Repr

-- The first name that already stood before it.
def firstRepeated? (seen : List String) : List String → Option String
  | [] => none
  | name :: rest => if name ∈ seen then some name else firstRepeated? (name :: seen) rest

theorem nodup_of_firstRepeated_eq_none {seen names : List String}
    (h : firstRepeated? seen names = none) : names.Nodup ∧ ∀ name ∈ names, name ∉ seen := by
  induction names generalizing seen with
  | nil => simp
  | cons name rest ih =>
    simp only [firstRepeated?] at h
    split at h
    · simp at h
    · rename_i hn
      obtain ⟨hd, hs⟩ := ih h
      refine ⟨List.nodup_cons.2 ⟨fun hm => hs name hm (by simp), hd⟩, ?_⟩
      intro other ho
      rcases List.mem_cons.1 ho with rfl | ho
      · exact hn
      · exact fun hm => hs other ho (List.mem_cons_of_mem _ hm)

namespace FieldDeclaration

-- The edge of a relationship field. Its parts are asked for in this order: an object type, a
-- relation name, a direction.
def relationship (type : String) (d : FieldDeclaration) (r : RelationDeclaration) :
    Except SchemaError FieldKind :=
  match ValueType.ofName d.typeName with
  | .object target =>
    match r.name.filter (!·.isEmpty), r.direction with
    | none, _ => .error (.missingRelationName type d.name)
    | some _, none => .error (.missingDirection type d.name)
    | some name, some written =>
      match Direction.ofName? written with
      | none => .error (.invalidDirection type d.name written)
      | some direction => .ok (.relationship ⟨name, direction, target⟩)
  | _ => .error (.relationOnValue type d.name d.typeName)

def kind (type : String) (d : FieldDeclaration) : Except SchemaError FieldKind :=
  match d.relation, d.statement with
  | some _, some _ => .error (.relationAndStatement type d.name)
  | some relation, none => d.relationship type relation
  | none, some statement => .ok (.computed statement (ValueType.ofName d.typeName))
  | none, none =>
    match ValueType.ofName d.typeName with
    | .scalar s => .ok (.scalar s)
    | .compound c => .ok (.compound c)
    | .object target => .error (.unboundObject type d.name target)

def toField (type : String) (d : FieldDeclaration) : Except SchemaError Field := do
  let kind ← d.kind type
  return {
    name := d.name
    kind := kind
    list := d.list
    required := d.required
    id := d.id
    unique := d.unique
    searchIndex := d.search
    scopes := d.scopes
    arguments := d.arguments }

end FieldDeclaration

namespace NodeType

def findScalar? (fields : List Field) (test : Field → Bool) : Option Field :=
  fields.find? fun f => test f && f.scalar?.isSome

-- Without an explicit key the first scalar field marked as an id serves, and after it the
-- first field of the id type.
def defaultKey? (fields : List Field) : Option String :=
  ((findScalar? fields (·.id)).or (findScalar? fields (·.scalar? == some .id))).map Field.name

theorem findScalar_mem {fields : List Field} {test : Field → Bool} {f : Field}
    (h : findScalar? fields test = some f) : f ∈ fields ∧ f.scalar?.isSome := by
  have hm := List.mem_of_find?_eq_some h
  have ht := List.find?_some h
  simp_all

theorem defaultKey_scalar {fields : List Field} :
    ∀ key ∈ defaultKey? fields, ∃ f ∈ fields, f.name = key ∧ f.scalar?.isSome := by
  intro key hk
  simp only [defaultKey?, Option.mem_def, Option.map_eq_some_iff, Option.or_eq_some_iff] at hk
  obtain ⟨f, hf, rfl⟩ := hk
  rcases hf with hf | ⟨_, hf⟩
  · exact ⟨f, (findScalar_mem hf).1, rfl, (findScalar_mem hf).2⟩
  · exact ⟨f, (findScalar_mem hf).1, rfl, (findScalar_mem hf).2⟩

theorem explicitKey_scalar {fields : List Field} {key : String}
    (h : ∃ f ∈ fields, f.name = key ∧ f.scalar?.isSome) :
    ∀ k ∈ some key, ∃ f ∈ fields, f.name = k ∧ f.scalar?.isSome := by
  intro k hk
  simp only [Option.mem_def, Option.some.injEq] at hk
  exact hk ▸ h

-- A type with the given fields, if their names are distinct and the explicit key is a scalar
-- field among them.
def build (name : String) (additionalLabels : List String) (scopes : AccessScopes)
    (fields : List Field) (explicitKey : Option String) : Except SchemaError NodeType :=
  match h : firstRepeated? [] (fields.map Field.name) with
  | some field => .error (.duplicateField name field)
  | none =>
    have hd := (nodup_of_firstRepeated_eq_none h).1
    match explicitKey with
    | none =>
      .ok ⟨name, additionalLabels, scopes, fields, defaultKey? fields, hd, defaultKey_scalar⟩
    | some key =>
      if hk : ∃ f ∈ fields, f.name = key ∧ f.scalar?.isSome then
        .ok ⟨name, additionalLabels, scopes, fields, some key, hd, explicitKey_scalar hk⟩
      else .error (.invalidPrimaryKey name key)

end NodeType

namespace TypeDeclaration

def toNodeType (d : TypeDeclaration) : Except SchemaError NodeType := do
  let fields ← d.fields.mapM (·.toField d.name)
  NodeType.build d.name d.additionalLabels d.scopes fields d.primaryKey

end TypeDeclaration

namespace Catalog

-- The first field of a type that leads to no type of the schema.
def dangling? (names : List String) (t : NodeType) : Option SchemaError :=
  t.fields.findSome? fun f =>
    match f.target? with
    | some target => if target ∈ names then none else some (.unknownTarget t.name f.name target)
    | none => none

theorem closed_of_dangling_eq_none {types : List NodeType}
    (h : types.findSome? (dangling? (types.map NodeType.name)) = none) :
    ∀ t ∈ types, ∀ f ∈ t.fields, ∀ target ∈ f.target?, target ∈ types.map NodeType.name := by
  intro t ht f hf target htarget
  have hd := List.findSome?_eq_none_iff.1 h t ht
  have hn := List.findSome?_eq_none_iff.1 hd f hf
  simp only [Option.mem_def] at htarget
  simp only [htarget] at hn
  split at hn
  · assumption
  · simp at hn

-- The catalog of the given types, if their names are distinct and no field leads nowhere.
def build (types : List NodeType) : Except SchemaError Catalog :=
  match h : firstRepeated? [] (types.map NodeType.name) with
  | some type => .error (.duplicateType type)
  | none =>
    match hc : types.findSome? (dangling? (types.map NodeType.name)) with
    | some e => .error e
    | none =>
      .ok ⟨types, (nodup_of_firstRepeated_eq_none h).1, closed_of_dangling_eq_none hc⟩

end Catalog

namespace SchemaDeclaration

-- Types are checked one after another, and the schema as a whole after all of them.
def toCatalog (d : SchemaDeclaration) : Except SchemaError Catalog := do
  Catalog.build (← d.types.mapM TypeDeclaration.toNodeType)

end SchemaDeclaration

end CypherCompiler
