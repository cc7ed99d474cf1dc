namespace CypherCompiler

-- Why a schema is refused.
inductive SchemaError where
  | duplicateType (type : String)
  | duplicateField (type field : String)
  | unknownType (type : String)
  | missingDirection (type field : String)
  | missingRelationName (type field : String)
  | invalidDirection (type field direction : String)
  | relationAndStatement (type field : String)
  | unboundObject (type field target : String)
  | relationOnValue (type field valueType : String)
  | unknownTarget (type field target : String)
  | invalidPrimaryKey (type field : String)
  | unreadable (reason : String)
  | malformed (reason : String)
  deriving DecidableEq, Repr

namespace SchemaError

def qualified (type field : String) : String :=
  "`" ++ type ++ "." ++ field ++ "`"

def message : SchemaError → String
  | .duplicateType type => "Duplicate type definition `" ++ type ++ "`"
  | .duplicateField type field => "Duplicate field " ++ qualified type field
  | .unknownType type => "No type metadata found for `" ++ type ++ "`"
  | .missingDirection type field =>
    "Relationship field " ++ qualified type field ++ " has no direction"
  | .missingRelationName type field =>
    "Relationship field " ++ qualified type field ++ " has no relation name"
  | .invalidDirection type field direction =>
    "Invalid direction `" ++ direction ++ "` on " ++ qualified type field ++
      " (expected IN or OUT)"
  | .relationAndStatement type field =>
    "Field " ++ qualified type field ++ " cannot be both a relationship and a custom statement"
  | .unboundObject type field target =>
    "Field " ++ qualified type field ++ " references type `" ++ target ++
      "` without a relation or custom statement"
  | .relationOnValue type field valueType =>
    "Field " ++ qualified type field ++ " declares a relation but has scalar type `" ++
      valueType ++ "`"
  | .unknownTarget type field target =>
    "Relationship " ++ qualified type field ++ " targets unknown type `" ++ target ++ "`"
  | .invalidPrimaryKey type field =>
    "Primary key `" ++ field ++ "` of `" ++ type ++ "` is not a scalar field of that type"
  | .unreadable reason => "Failed to read schema file: " ++ reason
  | .malformed reason => "Failed to parse schema: " ++ reason

end SchemaError

end CypherCompiler
