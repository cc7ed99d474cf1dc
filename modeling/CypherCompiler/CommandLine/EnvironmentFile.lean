import CypherCompiler.Text.Affix
import CypherCompiler.Text.Character

namespace CypherCompiler.CommandLine

-- Variables in the order in which they are set. A variable that is set keeps its value.
abbrev Variables := List (String × String)

namespace EnvironmentFile

open Text (isBlank isAlphanumeric)

-- Where a line stands: in quotes, after a backslash, after a blank, or in a comment.
-- A line that ends in quotes or after a backslash goes on in the next line.
inductive LineState where
  | plain
  | escape
  | single
  | singleEscape
  | double
  | doubleEscape
  | blank
  | comment
  deriving DecidableEq

def LineState.begin (c : Char) : LineState :=
  if c == '\\' then .escape else if c == '"' then .double else if c == '\'' then .single
  else .plain

def LineState.next (c : Char) : LineState → LineState
  | .plain => if isBlank c && c != '\n' && c != '\r' then .blank else .begin c
  | .blank => if c == '#' then .comment else .begin c
  | .escape => .plain
  | .single => if c == '\\' then .singleEscape else if c == '\'' then .plain else .single
  | .singleEscape => .single
  | .double => if c == '\\' then .doubleEscape else if c == '"' then .plain else .double
  | .doubleEscape => .double
  | .comment => .comment

-- The state after a piece of text, and the text up to a comment.
def scanLine (state : LineState) : List Char → LineState × List Char
  | [] => (state, [])
  | c :: rest =>
    match state.next c with
    | .comment => (.comment, [])
    | next => let (last, kept) := scanLine next rest; (last, c :: kept)

-- Lines put together from the pieces of a text. `none` is a line that does not end.
def lines (state : LineState) (begun : List Char) : List (List Char) → List (Option (List Char))
  | [] => if state = .plain then [] else [none]
  | piece :: rest =>
    let text := begun ++ piece
    if (text.dropWhile isBlank).head? = some '#' then lines .plain [] rest
    else match scanLine state piece with
      | (.plain, _) => some text :: lines .plain [] rest
      | (.comment, kept) => some (begun ++ kept) :: lines .plain [] rest
      | (next, _) => lines next text rest

-- The pieces of a text, each with the line feed that ends it.
def pieces : List Char → List (List Char)
  | [] => []
  | c :: rest =>
    if c == '\n' then [c] :: pieces rest
    else match pieces rest with
      | [] => [[c]]
      | piece :: more => (c :: piece) :: more

-- The name at the start of a line, and what follows it.
def name? (line : List Char) : Option (String × List Char) :=
  let isNameChar := fun c : Char => c.isAlphanum || c == '_' || c == '.'
  match line with
  | c :: _ =>
    if c.isAlpha || c == '_' then
      some (String.ofList (line.takeWhile isNameChar), line.dropWhile isNameChar)
    else none
  | [] => none

def escape? (c : Char) : Option Char :=
  if c == 'n' then some '\n' else if "\\'\"$ ".contains c then some c else none

-- How the next character of a value is read. A reference to a variable knows whether it
-- stands in double quotes, and the part of the name that was read, backwards.
inductive ValueState where
  | bare
  | single
  | double
  | escape (quoted : Bool)
  | reference (quoted : Bool) (name : List Char)
  | braced (quoted : Bool) (name : List Char)
  | closed
  deriving DecidableEq

def ValueState.quoted : Bool → ValueState
  | true => .double
  | false => .bare

def valueOf (known : Variables) (name : List Char) : List Char :=
  ((known.lookup (String.ofList name.reverse)).getD "").toList

-- The state after a character of a value, and the text that the character adds.
-- After a blank outside of quotes only a comment may follow. The character that ends the name
-- of a variable is part of the text, whatever it is.
def ValueState.next? (known : Variables) (c : Char) :
    ValueState → Option (ValueState × List Char)
  | .bare =>
    if c == '$' then some (.reference false [], [])
    else if c == '\'' then some (.single, [])
    else if c == '"' then some (.double, [])
    else if c == '\\' then some (.escape false, [])
    else if c == ' ' || c == '\t' then some (.closed, [])
    else some (.bare, [c])
  | .single => if c == '\'' then some (.bare, []) else some (.single, [c])
  | .double =>
    if c == '$' then some (.reference true [], [])
    else if c == '"' then some (.bare, [])
    else if c == '\\' then some (.escape true, [])
    else some (.double, [c])
  | .escape inQuotes => (escape? c).map fun c => (.quoted inQuotes, [c])
  | .reference inQuotes name =>
    if isAlphanumeric c then some (.reference inQuotes (c :: name), [])
    else if c == '{' && name.isEmpty then some (.braced inQuotes [], [])
    else if c == '$' then some (.reference inQuotes [], valueOf known name)
    else some (.quoted inQuotes, valueOf known name ++ [c])
  | .braced inQuotes name =>
    if c == '}' then some (.quoted inQuotes, valueOf known name)
    else some (.braced inQuotes (c :: name), [])
  | .closed => if c == ' ' || c == '\t' then some (.closed, []) else none

-- What is left to add at the end of a value.
def ValueState.finish? (known : Variables) : ValueState → Option (List Char)
  | .bare | .closed | .escape false => some []
  | .reference false name => some (valueOf known name)
  | _ => none

def valueFrom? (known : Variables) (state : ValueState) : List Char → Option (List Char)
  | [] => state.finish? known
  | c :: rest =>
    if state = .closed ∧ c = '#' then some []
    else do
      let (next, text) ← state.next? known c
      return text ++ (← valueFrom? known next rest)

def value? (known : Variables) (written : List Char) : Option String :=
  match written.dropWhile isBlank with
  | [] | '#' :: _ => some ""
  | cs => String.ofList <$> valueFrom? known .bare cs

-- What a line sets: a blank line or a comment sets nothing, and `none` is a fault.
def assignment? (known : Variables) (line : List Char) :
    Option (Option (String × String)) :=
  let line := ((line.dropWhile isBlank).reverse.dropWhile isBlank).reverse
  match line with
  | [] | '#' :: _ => some none
  | _ => do
    let (first, rest) ← name? line
    let rest := rest.dropWhile isBlank
    let (name, rest) ←
      if first == "export" && rest.head? != some '=' then
        (name? rest).map fun (name, rest) => (name, rest.dropWhile isBlank)
      else some (first, rest)
    match rest with
    | '=' :: written => return some (name, ← value? known written)
    | _ => none

-- Set the variables of a file, up to the first line that is no assignment.
def load (known : Variables) : List (Option (List Char)) → Variables
  | [] => known
  | line :: rest =>
    match line.bind (assignment? known) with
    | none => known
    | some none => load known rest
    | some (some (name, value)) =>
      load (if (known.lookup name).isSome then known else known ++ [(name, value)])
        rest

end EnvironmentFile

-- The variables after a file was read.
def Variables.withFile (known : Variables) (text : String) : Variables :=
  let text := (Text.afterPrefix? text "\ufeff").getD text
  EnvironmentFile.load known
    (EnvironmentFile.lines .plain [] (EnvironmentFile.pieces text.toList))

end CypherCompiler.CommandLine
