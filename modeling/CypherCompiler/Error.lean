import CypherCompiler.Schema.Basic
import CypherCompiler.Schema.Error

namespace CypherCompiler

-- Why a request is refused.
inductive RequestError where
  | invalidFilterField (key : String)
  | invalidGroupByPath (segment : String)
  | invalidOrderField (item : String)
  | invalidPagination (argument value : String)
  | ambiguousMatch (type keys : String)
  | unknownCountTarget (field : String)
  | forbidden (field : String)
  | invalidInputField (key : String)
  | schemaInconsistency (reason : String)
  | parameterCollision (name : String)
  deriving DecidableEq, Repr

namespace RequestError

def ofSchema (e : SchemaError) : RequestError :=
  .schemaInconsistency e.message

def message : RequestError → String
  | .invalidFilterField key => "Invalid filter field \"" ++ key ++ "\""
  | .invalidGroupByPath segment => "Unable to group by \"" ++ segment ++ "\""
  | .invalidOrderField item =>
    "Invalid order field \"" ++ item ++ "\" (expected <field>_asc or <field>_desc)"
  | .invalidPagination argument value => "Invalid pagination: " ++ argument ++ " = " ++ value
  | .ambiguousMatch type keys =>
    "Keys [" ++ keys ++ "] do not identify a single `" ++ type ++
      "` (use a unique or id field)"
  | .unknownCountTarget field => "Unknown count target \"" ++ field ++ "\""
  | .forbidden field => "Not authorized to access \"" ++ field ++ "\""
  | .invalidInputField key => "Invalid input field \"" ++ key ++ "\""
  | .schemaInconsistency reason => "Schema inconsistency: " ++ reason
  | .parameterCollision name => "Parameter `" ++ name ++ "` produced twice in one statement"

-- Whether the fault lies in the shape of the request, so that its issuer may see it.
def concernsShape : RequestError → Bool
  | .invalidFilterField _ | .invalidGroupByPath _ | .invalidOrderField _
  | .invalidPagination .. | .unknownCountTarget _ | .invalidInputField _ => true
  | _ => false

end RequestError

-- The node type of a given name, which a well-formed catalog has wherever a field leads.
def Catalog.require (c : Catalog) (name : String) : Except RequestError NodeType :=
  match c.type? name with
  | some t => .ok t
  | none => .error (.ofSchema (.unknownType name))

end CypherCompiler
