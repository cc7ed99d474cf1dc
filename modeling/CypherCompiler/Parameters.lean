import CypherCompiler.Error
import CypherCompiler.Json.Basic

namespace CypherCompiler

-- The values taken out of a request, under the names by which the statement refers to them,
-- in the order in which they were taken out.
structure Parameters where
  members : Json.Members

namespace Parameters

def empty : Parameters := ⟨[]⟩

def contains (ps : Parameters) (name : String) : Bool :=
  ps.members.contains name

def get? (ps : Parameters) (name : String) : Option Json :=
  ps.members.get? name

def names (ps : Parameters) : List String :=
  ps.members.keys

-- A name can be given once only.
def insert (ps : Parameters) (name : String) (value : Json) :
    Except RequestError Parameters :=
  if ps.contains name then .error (.parameterCollision name)
  else .ok ⟨ps.members ++ [(name, value)]⟩

-- Refer to a value that several parts of a statement use; the first of them brings it in.
def share (ps : Parameters) (name : String) (value : Json) : Parameters :=
  if ps.contains name then ps else ⟨ps.members ++ [(name, value)]⟩

def toJson (ps : Parameters) : Json := .obj ps.members

end Parameters

namespace Scalar

mutual

-- The value as it is stored in a field of the scalar type: ids are always text.
def normalize (scalar : Scalar) : Json → Json
  | .number n => if scalar = .id then .str n.text else .number n
  | .bool b => if scalar = .id then .str (if b then "true" else "false") else .bool b
  | .arr items => .arr (normalizeAll scalar items)
  | v => v

def normalizeAll (scalar : Scalar) : List Json → List Json
  | [] => []
  | v :: rest => normalize scalar v :: normalizeAll scalar rest

end

end Scalar

end CypherCompiler
