namespace CypherCompiler

-- Primitive values of a property.
inductive Scalar where
  | id
  | string
  | int
  | float
  | boolean
  deriving DecidableEq, Repr

namespace Scalar

def all : List Scalar := [.id, .string, .int, .float, .boolean]

def name : Scalar → String
  | .id => "ID"
  | .string => "String"
  | .int => "Int"
  | .float => "Float"
  | .boolean => "Boolean"

def ofName? (s : String) : Option Scalar :=
  all.find? (·.name == s)

-- Text tests such as a prefix or a regular expression make sense on these only.
def isTextual : Scalar → Bool
  | .id | .string => true
  | _ => false

-- Order tests make sense on these only.
def isNumeric : Scalar → Bool
  | .int | .float => true
  | _ => false

end Scalar

-- Values that are stored as one property and shown as a group of sub-fields.
inductive Compound where
  | date
  | time
  | localTime
  | dateTime
  | localDateTime
  | point
  deriving DecidableEq, Repr

namespace Compound

def all : List Compound := [.date, .time, .localTime, .dateTime, .localDateTime, .point]

def name : Compound → String
  | .date => "Date"
  | .time => "Time"
  | .localTime => "LocalTime"
  | .dateTime => "DateTime"
  | .localDateTime => "LocalDateTime"
  | .point => "Point"

def ofName? (s : String) : Option Compound :=
  all.find? (·.name == s)

def calendar : List String := ["year", "month", "day"]

def clock : List String :=
  ["hour", "minute", "second", "millisecond", "microsecond", "nanosecond"]

-- The sub-fields, in the order in which a whole value is shown.
def constituents : Compound → List String
  | .date => calendar
  | .time => clock ++ ["timezone"]
  | .localTime => clock
  | .dateTime => calendar ++ clock ++ ["timezone"]
  | .localDateTime => calendar ++ clock
  | .point => ["x", "y", "z", "longitude", "latitude", "height", "crs", "srid"]

def isTemporal : Compound → Bool
  | .point => false
  | _ => true

-- The sub-field that shows a temporal value as text.
def formatted : String := "formatted"

def hasSubField (c : Compound) (field : String) : Bool :=
  (c.isTemporal && field == formatted) || c.constituents.contains field

-- The database function that builds a value from a map or from text.
def constructor : Compound → String
  | .date => "date"
  | .time => "time"
  | .localTime => "localtime"
  | .dateTime => "datetime"
  | .localDateTime => "localdatetime"
  | .point => "point"

end Compound

-- What a declared type name stands for. A name that is no value type is the name of a node
-- type.
inductive ValueType where
  | scalar (scalar : Scalar)
  | compound (compound : Compound)
  | object (name : String)
  deriving DecidableEq, Repr

namespace ValueType

def ofName (s : String) : ValueType :=
  match Scalar.ofName? s, Compound.ofName? s with
  | some v, _ => .scalar v
  | none, some v => .compound v
  | none, none => .object s

end ValueType

end CypherCompiler
