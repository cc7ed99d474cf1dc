import CypherCompiler.Schema.ValueType

namespace CypherCompiler

-- Which way an edge points, seen from the type that declares the field.
inductive Direction where
  | out
  | into
  deriving DecidableEq, Repr

namespace Direction

def ofName? (s : String) : Option Direction :=
  match s.toUpper with
  | "OUT" | "OUTBOUND" => some .out
  | "IN" | "INBOUND" => some .into
  | _ => none

def name : Direction → String
  | .out => "OUT"
  | .into => "IN"

end Direction

-- The edge behind a relationship field.
structure Relation where
  name : String
  direction : Direction
  target : String
  deriving DecidableEq, Repr

-- What a field stands for. A computed field is the result of a statement of its own, in
-- which `this` is the node that owns the field.
inductive FieldKind where
  | scalar (scalar : Scalar)
  | compound (compound : Compound)
  | relationship (relation : Relation)
  | computed (statement : String) (returns : ValueType)
  deriving DecidableEq, Repr

structure Field where
  name : String
  kind : FieldKind
  list : Bool
  required : Bool
  id : Bool
  unique : Bool
  searchIndex : Option String
  scopes : List String
  arguments : List String
  deriving DecidableEq, Repr

namespace Field

def relation? (f : Field) : Option Relation :=
  match f.kind with
  | .relationship r => some r
  | _ => none

def scalar? (f : Field) : Option Scalar :=
  match f.kind with
  | .scalar s => some s
  | _ => none

def compound? (f : Field) : Option Compound :=
  match f.kind with
  | .compound c => some c
  | _ => none

-- Stored with the node itself.
def isProperty (f : Field) : Bool :=
  match f.kind with
  | .scalar _ | .compound _ => true
  | _ => false

-- The node type that a selection below the field is read from.
def target? (f : Field) : Option String :=
  match f.kind with
  | .relationship r => some r.target
  | .computed _ (.object target) => some target
  | _ => none

end Field

-- What a caller does with the nodes of a type.
inductive Access where
  | read
  | create
  | update
  | delete
  | merge
  deriving DecidableEq, Repr

-- The scopes that an access to a type asks for. No scopes mean no restriction.
structure AccessScopes where
  read : List String
  create : List String
  update : List String
  delete : List String
  merge : List String
  deriving DecidableEq, Repr

namespace AccessScopes

def unrestricted : AccessScopes := ⟨[], [], [], [], []⟩

def required (s : AccessScopes) : Access → List String
  | .read => s.read
  | .create => s.create
  | .update => s.update
  | .delete => s.delete
  | .merge => s.merge

end AccessScopes

-- A type of nodes. Field names are distinct, and a primary key is a scalar field.
structure NodeType where
  name : String
  additionalLabels : List String
  scopes : AccessScopes
  fields : List Field
  primaryKey : Option String
  fields_nodup : (fields.map Field.name).Nodup
  primaryKey_scalar : ∀ key ∈ primaryKey, ∃ f ∈ fields, f.name = key ∧ f.scalar?.isSome

namespace NodeType

def field? (t : NodeType) (name : String) : Option Field :=
  t.fields.find? (·.name == name)

-- Whether the field alone tells one node of the type from all others.
def isUniqueKey (t : NodeType) (name : String) : Bool :=
  match t.field? name with
  | some f => f.scalar?.isSome && (f.id || f.unique || t.primaryKey == some name)
  | none => false

-- The type's own name comes first.
def labels (t : NodeType) : List String :=
  t.name :: t.additionalLabels

-- The full-text index of the type is the first one that a field declares.
def searchIndex? (t : NodeType) : Option String :=
  t.fields.findSome? (·.searchIndex)

end NodeType

-- All node types. Their names are distinct, and every field leads to one of them.
structure Catalog where
  types : List NodeType
  types_nodup : (types.map NodeType.name).Nodup
  closed : ∀ t ∈ types, ∀ f ∈ t.fields, ∀ target ∈ f.target?, target ∈ types.map NodeType.name

namespace Catalog

def type? (c : Catalog) (name : String) : Option NodeType :=
  c.types.find? (·.name == name)

end Catalog

end CypherCompiler
