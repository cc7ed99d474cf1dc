import CypherCompiler.Cypher.Statement
import CypherCompiler.Json.Writer
import CypherCompiler.Compilation.Draft

namespace CypherCompiler

open Cypher

-- An item of an ordering: a field, and which way.
structure OrderItem where
  field : String
  descending : Bool
  deriving DecidableEq, Repr

namespace OrderItem

-- A name with its ending taken off, and the way that the ending stands for.
def split? (written : String) : Option OrderItem :=
  match Text.beforeSuffix? written "_asc" with
  | some field => some ⟨field, false⟩
  | none => (Text.beforeSuffix? written "_desc").map (⟨·, true⟩)

-- Nodes are ordered by their number or by a stored property of one value.
def isOrderable (type : NodeType) (field : String) : Bool :=
  field == Argument.nodeId || (type.field? field).any (fun f => f.isProperty && !f.list)

def read (type : NodeType) (written : String) : Except RequestError OrderItem :=
  match split? written with
  | some item =>
    if isOrderable type item.field then .ok item else .error (.invalidOrderField written)
  | none => .error (.invalidOrderField written)

def term (node : String) (item : OrderItem) : OrderTerm :=
  if item.field = Argument.nodeId then ⟨.nodeId node, item.descending⟩
  else ⟨.property node item.field, item.descending⟩

def readValue (type : NodeType) : Json → Except RequestError OrderItem
  | .str s => read type s
  | v => .error (.invalidOrderField v.compact)

-- The ordering that an argument asks for. A single item may stand without a list.
def readAll (type : NodeType) : Option Json → Except RequestError (List OrderItem)
  | none => .ok []
  | some (.arr items) => items.mapM (readValue type)
  | some v => do return [← readValue type v]

end OrderItem

-- The ordering of a read field. Without one, what an index found comes best first.
def Selection.orderTerms (s : Selection) (type : NodeType) (node : String)
    (score : Option String) : Except RequestError (List OrderTerm) := do
  let items ← OrderItem.readAll type (s.argument? Argument.orderBy)
  if items.isEmpty then
    return (score.map fun name => (⟨.score name, true⟩ : OrderTerm)).toList
  else return items.map (OrderItem.term node)

-- The rows that a field asks for: how many of them, or all, and how many to pass over.
structure Pagination where
  first : Int
  offset : Int
  deriving DecidableEq, Repr

namespace Pagination

-- Written for all rows.
def unbounded : Int := -1

def isLimited (p : Pagination) : Bool := p.first != unbounded

-- A whole number that is no less than `least`.
def bound (argument : String) (least : Int) (fallback : Int) :
    Option Json → Except RequestError Int
  | none => .ok fallback
  | some v =>
    match v.asInt64? with
    | some n => if n < least then .error (.invalidPagination argument (toString n)) else .ok n
    | none => .error (.invalidPagination argument v.compact)

def ofSelection (s : Selection) : Except RequestError Pagination := do
  let first ← bound Argument.first unbounded unbounded (s.argument? Argument.first)
  let offset ← bound Argument.offset 0 0 (s.argument? Argument.offset)
  return ⟨first, offset⟩

end Pagination

-- The window of a read field. Bounds that leave nothing out are not written.
def Selection.window (s : Selection) (path : ParameterPath) : Hoist Window := do
  let p ← Pagination.ofSelection s
  let skip ← if 0 < p.offset then
      some <$> Hoist.value (path.child Argument.offset) (.ofInt p.offset)
    else pure none
  let limit ← if p.isLimited then
      some <$> Hoist.value (path.child Argument.first) (.ofInt p.first)
    else pure none
  return ⟨skip, limit⟩

end CypherCompiler
