import CypherCompiler.Json.Token

namespace CypherCompiler.Json

-- An array or object that is still open, its entries last to first. An object also holds the
-- key whose value comes next.
inductive Frame where
  | arr (items : List Written)
  | obj (members : List (Quoted × Written)) (key : Quoted)

-- What the reader accepts next, with the open groups around it, innermost first.
inductive Reading where
  | value (stack : List Frame)
  | firstItem (stack : List Frame)
  | firstKey (stack : List Frame)
  | key (members : List (Quoted × Written)) (stack : List Frame)
  | colon (members : List (Quoted × Written)) (key : Quoted) (stack : List Frame)
  | afterValue (value : Written) (stack : List Frame)

namespace Reading

def start? (stack : List Frame) : Token → Option Reading
  | .scalar v => some (.afterValue v stack)
  | .openArr => some (.firstItem stack)
  | .openObj => some (.firstKey stack)
  | _ => none

def step? : Reading → Token → Option Reading
  | .value stack, t => start? stack t
  | .firstItem stack, .closeArr => some (.afterValue (.arr []) stack)
  | .firstItem stack, t => start? (.arr [] :: stack) t
  | .firstKey stack, .closeObj => some (.afterValue (.obj []) stack)
  | .firstKey stack, .scalar (.str k) => some (.colon [] k stack)
  | .key ms stack, .scalar (.str k) => some (.colon ms k stack)
  | .colon ms k stack, .colon => some (.value (.obj ms k :: stack))
  | .afterValue v (.arr items :: stack), .comma => some (.value (.arr (v :: items) :: stack))
  | .afterValue v (.arr items :: stack), .closeArr =>
    some (.afterValue (.arr (v :: items).reverse) stack)
  | .afterValue v (.obj ms k :: stack), .comma => some (.key ((k, v) :: ms) stack)
  | .afterValue v (.obj ms k :: stack), .closeObj =>
    some (.afterValue (.obj ((k, v) :: ms).reverse) stack)
  | _, _ => none

def result? : Reading → Option Written
  | .afterValue v [] => some v
  | _ => none

end Reading

-- What a text writes.
def Written.read? (text : String) : Option Written := do
  let tokens ← Token.scan? text.toList
  let reading ← tokens.foldlM Reading.step? (.value [])
  reading.result?

end CypherCompiler.Json
