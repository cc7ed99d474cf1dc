import CypherCompiler.Document.Format
import CypherCompiler.Json.Written

namespace CypherCompiler.Json.Written

def text? : Written → Option String
  | .str s => s.text?
  | _ => none

def flag? : Written → Option Bool
  | .bool b => some b
  | _ => none

def isNull : Written → Bool
  | .null => true
  | _ => false

def items? : Written → Option (List Written)
  | .arr items => some items
  | _ => none

-- A record is an object, or a list of the members in the order of their names. What stands
-- under other keys is never read, so that it need not have a value.
def record? (names : List String) : Written → Option (List (String × Written))
  | .obj members => do
    let members ← members.mapM fun (key, v) => do return (← key.text?, v)
    let known := members.filter fun (key, _) => names.contains key
    if (known.map Prod.fst).Nodup then some known else none
  | .arr items => if items.length ≤ names.length then some (names.zip items) else none
  | _ => none

def format : DocumentFormat Written where
  text? := text?
  flag? := flag?
  isNull? := fun v => some v.isNull
  items? := items?
  record? := record?

end CypherCompiler.Json.Written
