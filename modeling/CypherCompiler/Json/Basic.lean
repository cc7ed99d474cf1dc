import CypherCompiler.Number.Written

namespace CypherCompiler

namespace Json

-- Whole numbers keep their exact value; everything else is binary floating point.
inductive Number where
  | int (value : Int)
  | float (value : Binary64)
  deriving DecidableEq, Repr

def Number.text : Number → String
  | .int value => toString value
  | .float value => value.text

-- Whole numbers below this one are read as floating point, and so are those above 64 bits.
def leastInt : Int := -0x8000000000000000

end Json

-- A JSON value. The members of an object stand in the order in which they were written.
inductive Json where
  | null
  | bool (value : Bool)
  | number (value : Json.Number)
  | str (value : String)
  | arr (items : List Json)
  | obj (members : List (String × Json))
  deriving Repr

namespace Json

-- A member list in which every key stands at most once.
abbrev Members := List (String × Json)

namespace Members

def get? (ms : Members) (key : String) : Option Json :=
  ms.lookup key

def contains (ms : Members) (key : String) : Bool :=
  ms.any (·.1 == key)

def keys (ms : Members) : List String :=
  ms.map Prod.fst

-- A key written again keeps its first place and takes the new value.
def put (ms : Members) (key : String) (value : Json) : Members :=
  match ms with
  | [] => [(key, value)]
  | (k, v) :: rest => if k == key then (k, value) :: rest else (k, v) :: put rest key value

end Members

def isNull : Json → Bool
  | .null => true
  | _ => false

def isString : Json → Bool
  | .str _ => true
  | _ => false

def isNumber : Json → Bool
  | .number _ => true
  | _ => false

def isObject : Json → Bool
  | .obj _ => true
  | _ => false

def isArray : Json → Bool
  | .arr _ => true
  | _ => false

def asObject? : Json → Option Members
  | .obj ms => some ms
  | _ => none

def asArray? : Json → Option (List Json)
  | .arr items => some items
  | _ => none

def asString? : Json → Option String
  | .str s => some s
  | _ => none

-- A whole number that fits 64 signed bits.
def asInt64? : Json → Option Int
  | .number (.int n) => if n < 0x8000000000000000 then some n else none
  | _ => none

def ofInt (n : Int) : Json := .number (.int n)

def ofStrings (items : List String) : Json := .arr (items.map .str)

-- What a program reads from its own documents and writes into its answers, beside requests.
def asBool? : Json → Option Bool
  | .bool b => some b
  | _ => none

def ofOption (value : Option String) : Json :=
  match value with
  | some s => .str s
  | none => .null

end Json

end CypherCompiler
