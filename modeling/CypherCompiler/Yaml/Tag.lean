import CypherCompiler.Text.Character
import CypherCompiler.Yaml.Character

namespace CypherCompiler.Yaml

-- A tag as it is written: a handle, which stands for the start of a name, and the rest of the
-- name. Without a handle the name is written in full.
structure WrittenTag where
  handle : String
  rest : String
  deriving DecidableEq, Repr

namespace WrittenTag

def isUriChar (c : Char) : Bool :=
  isNameChar c || ";/?:@&=+$.%!~*'()".contains c

def isVerbatimChar (c : Char) : Bool :=
  isUriChar c || c == ',' || c == '[' || c == ']'

-- How many octets follow the first one of a character.
def followers? (octet : Nat) : Option Nat :=
  if octet < 0x80 then some 0
  else if 0xC0 ≤ octet ∧ octet < 0xE0 then some 1
  else if 0xE0 ≤ octet ∧ octet < 0xF0 then some 2
  else if 0xF0 ≤ octet ∧ octet < 0xF8 then some 3
  else none

-- The characters of a name, those written as octets one by one; `due` octets must come first.
def decode? (due : Nat) : List Char → Option (List Char)
  | [] => if due = 0 then some [] else none
  | '%' :: a :: b :: rest => do
    let octet ← Text.hexNumber? [a, b]
    let due ← if due = 0 then followers? octet
      else if 0x80 ≤ octet ∧ octet < 0xC0 then some (due - 1)
      else none
    return Char.ofNat octet :: (← decode? due rest)
  | c :: rest => if due = 0 && c != '%' then do return c :: (← decode? 0 rest) else none

-- A name at the start of a text, and what follows it.
def name? (isPart : Char → Bool) (cs : List Char) : Option (String × List Char) := do
  let decoded ← decode? 0 (cs.takeWhile isPart)
  return (String.ofList decoded, cs.dropWhile isPart)

-- A name that is not empty.
def fullName? (isPart : Char → Bool) (cs : List Char) : Option (String × List Char) :=
  (name? isPart cs).filter (!·.1.isEmpty)

-- The tag that follows an exclamation mark, and what follows the tag.
def read? (cs : List Char) : Option (WrittenTag × List Char) :=
  match cs with
  | '<' :: cs => do
    match ← fullName? isVerbatimChar cs with
    | (name, '>' :: rest) => return (⟨"", name⟩, rest)
    | _ => none
  | cs =>
    match cs.dropWhile isNameChar with
    | '!' :: named => do
      let (name, rest) ← fullName? isUriChar named
      return (⟨"!" ++ String.ofList (cs.takeWhile isNameChar) ++ "!", name⟩, rest)
    | _ => do
      let (name, rest) ← name? isUriChar cs
      return (if name.isEmpty then ⟨"", "!"⟩ else ⟨"!", name⟩, rest)

-- What handles stand for in every document.
def commonHandles : List (String × String) := [("!", "!"), ("!!", "tag:yaml.org,2002:")]

-- The name of a tag, as long as its handle is known.
def name (handles : List (String × String)) (t : WrittenTag) : Option String :=
  if t.handle.isEmpty then some t.rest
  else ((handles ++ commonHandles).lookup t.handle).map (· ++ t.rest)

end WrittenTag

-- A line in front of a document that says how to read it.
inductive Directive where
  | version (major minor : Nat)
  | shorthand (handle start : String)
  deriving DecidableEq, Repr

namespace Directive

def afterBlanks (cs : List Char) : List Char := cs.dropWhile isBlank

-- A number of at most nine digits.
def number? (cs : List Char) : Option (Nat × List Char) :=
  let digits := cs.takeWhile Char.isDigit
  if digits.isEmpty || 9 < digits.length then none
  else
    some (digits.foldl (fun n c => n * 10 + (c.toNat - '0'.toNat)) 0, cs.dropWhile Char.isDigit)

def version? (cs : List Char) : Option (Directive × List Char) := do
  match ← number? (afterBlanks cs) with
  | (major, '.' :: rest) =>
    let (minor, rest) ← number? rest
    return (.version major minor, rest)
  | _ => none

-- A handle is an exclamation mark, or a name between two of them.
def shorthand? (cs : List Char) : Option (Directive × List Char) :=
  match afterBlanks cs with
  | '!' :: cs => do
    let word := cs.takeWhile isNameChar
    let (handle, rest) ← match cs.dropWhile isNameChar with
      | '!' :: rest => some (['!'] ++ word ++ ['!'], rest)
      | rest => if word.isEmpty then some (['!'], rest) else none
    if !rest.head?.any isBlank then none
    let (start, rest) ← WrittenTag.fullName? WrittenTag.isVerbatimChar (afterBlanks rest)
    if endsMark rest then return (.shorthand (String.ofList handle) start, rest) else none
  | _ => none

-- The directive of a line after its percent sign. Only a comment may follow it.
def read? (line : List Char) : Option Directive := do
  let rest := line.dropWhile isNameChar
  if !endsMark rest then none
  let (directive, rest) ← match String.ofList (line.takeWhile isNameChar) with
    | "YAML" => version? rest
    | "TAG" => shorthand? rest
    | _ => none
  if (afterBlanks rest).head?.all (· == '#') then return directive else none

-- Documents of other versions are refused.
def isSupported : Directive → Bool
  | .version major minor => major == 1 && (minor == 1 || minor == 2)
  | .shorthand .. => true

end Directive

end CypherCompiler.Yaml
