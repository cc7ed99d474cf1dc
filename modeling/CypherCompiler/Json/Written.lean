import CypherCompiler.Json.Numeral
import CypherCompiler.Json.Quoted

namespace CypherCompiler.Json

-- A JSON value as it is written. What its numerals and texts stand for is still open, and an
-- object may hold a key more than once.
inductive Written where
  | null
  | bool (value : Bool)
  | numeral (value : Numeral)
  | str (value : Quoted)
  | arr (items : List Written)
  | obj (members : List (Quoted × Written))
  deriving Repr

namespace Written

-- Groups that are read nest at most this deep.
def maxDepth : Nat := 127

mutual

-- The value that is meant, as long as its groups nest at most `levels` deep.
def value? (levels : Nat) : Written → Option Json
  | .null => some .null
  | .bool b => some (.bool b)
  | .numeral n => .number <$> n.number?
  | .str s => .str <$> s.text?
  | .arr items => if levels = 0 then none else .arr <$> values? (levels - 1) items
  | .obj members => if levels = 0 then none else .obj <$> memberValues? (levels - 1) [] members

def values? (levels : Nat) : List Written → Option (List Json)
  | [] => some []
  | v :: rest => do
    let v ← value? levels v
    return v :: (← values? levels rest)

-- A key that is written again keeps its first place and takes the new value.
def memberValues? (levels : Nat) (known : Members) : List (Quoted × Written) → Option Members
  | [] => some known
  | (key, v) :: rest => do
    let key ← key.text?
    let v ← value? levels v
    memberValues? levels (known.put key v) rest

end

def members? (levels : Nat) (v : Written) : Option Members :=
  (v.value? levels).bind asObject?

end Written

end CypherCompiler.Json
