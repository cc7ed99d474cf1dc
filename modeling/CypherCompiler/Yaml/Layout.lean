import CypherCompiler.Yaml.Token

namespace CypherCompiler.Yaml

-- A place in a line, counted in characters and in bytes.
structure Position where
  column : Nat
  offset : Nat
  deriving DecidableEq, Repr

namespace Position

def lineStart : Position := ⟨0, 0⟩

def after (p : Position) (c : Char) : Position := ⟨p.column + 1, p.offset + c.utf8Size⟩

end Position

-- The start of a mark that becomes a key if a colon follows it on the same line. `place` is the
-- number of tokens in front of it. Where only a key can stand it is required.
structure PossibleKey where
  position : Position
  place : Nat
  required : Bool
  deriving Repr

-- The tokens of a document so far, last to first, with what decides about those to come: the
-- columns of the open blocks, innermost first; the mark that may be a key, inside the innermost
-- flow group and at each level around it; and whether a key may begin here.
structure Layout where
  blocks : List Nat
  possibleKey : Option PossibleKey
  outerKeys : List (Option PossibleKey)
  keyAllowed : Bool
  count : Nat
  tokens : List Token
  deriving Repr

namespace Layout

def empty : Layout := ⟨[], none, [], true, 0, []⟩

def inFlow (l : Layout) : Bool := !l.outerKeys.isEmpty

-- Lines of a scalar in the innermost block start at this column or to its right.
def leastColumn (l : Layout) : Nat :=
  match l.blocks with
  | [] => 0
  | column :: _ => column + 1

def emit (l : Layout) (t : Token) : Layout :=
  { l with count := l.count + 1, tokens := t :: l.tokens }

-- Put a token in front of all but the first `place` tokens.
def insert (l : Layout) (place : Nat) (t : Token) : Layout :=
  let later := l.count - place
  { l with count := l.count + 1, tokens := l.tokens.take later ++ t :: l.tokens.drop later }

-- A key lies within this many bytes.
def longestKey : Nat := 1024

-- Give up the mark that may be a key.
def dropKey? (l : Layout) : Option Layout :=
  if l.possibleKey.any (·.required) then none else some { l with possibleKey := none }

-- A mark that may be a key begins. At the column of the innermost block nothing else can stand.
def beginKey? (l : Layout) (p : Position) : Option Layout :=
  if l.keyAllowed then do
    let l ← l.dropKey?
    let required := !l.inFlow && l.blocks.head? == some p.column
    return { l with possibleKey := some ⟨p, l.count, required⟩, keyAllowed := false }
  else some l

-- A line ends, and with it all marks that may be keys.
def endLine? (l : Layout) : Option Layout :=
  if l.possibleKey.any (·.required) || l.outerKeys.any (·.any (·.required)) then none
  else some { l with possibleKey := none, outerKeys := l.outerKeys.map fun _ => none }

-- A new line of a block may begin with a key.
def allowKey (l : Layout) : Layout := { l with keyAllowed := true }

def nextLine (l : Layout) : Layout := if l.inFlow then l else l.allowKey

-- A block begins to the right of those that are open, in front of all but the first `place`
-- tokens.
def openBlock (l : Layout) (column place : Nat) (t : Token) : Layout :=
  if l.inFlow || l.blocks.head?.any (column ≤ ·) then l
  else { l.insert place t with blocks := column :: l.blocks }

-- End the blocks at a column and to its right.
def closeBlocks (l : Layout) (column : Nat) : Layout :=
  if l.inFlow then l
  else
    let closed := (l.blocks.takeWhile (column ≤ ·)).map fun _ => Token.closeBlock
    { l with
      blocks := l.blocks.dropWhile (column ≤ ·)
      count := l.count + closed.length
      tokens := closed ++ l.tokens }

-- A mark that stands for itself at the start of a line, outside of all blocks.
def margin? (l : Layout) (t : Token) : Option Layout := do
  let l ← (l.closeBlocks 0).dropKey?
  return { l.emit t with keyAllowed := false }

def openFlow? (l : Layout) (p : Position) (t : Token) : Option Layout := do
  let l ← l.beginKey? p
  return {
    l.emit t with
    possibleKey := none
    outerKeys := l.possibleKey :: l.outerKeys
    keyAllowed := true }

def closeFlow? (l : Layout) (t : Token) : Option Layout := do
  let l ← l.dropKey?
  return {
    l.emit t with
    possibleKey := l.outerKeys.head?.getD none
    outerKeys := l.outerKeys.tail
    keyAllowed := false }

def comma? (l : Layout) : Option Layout := do
  let l ← l.dropKey?
  return (l.emit .comma).allowKey

def dash? (l : Layout) (p : Position) : Option Layout := do
  if !l.inFlow && !l.keyAllowed then none
  let l ← (l.openBlock p.column l.count .openBlockSeq).dropKey?
  return (l.emit .dash).allowKey

-- A key that is marked as such.
def keyMark? (l : Layout) (p : Position) : Option Layout := do
  if !l.inFlow && !l.keyAllowed then none
  let l ← (l.openBlock p.column l.count .openBlockMap).dropKey?
  return { l.emit .key with keyAllowed := !l.inFlow }

-- The colon in front of a value. What stands before it is a key if it may be one; otherwise the
-- value belongs to a key that is marked.
def valueMark? (l : Layout) (p : Position) : Option Layout :=
  match l.possibleKey.filter fun k => p.offset ≤ k.position.offset + longestKey with
  | some k =>
    let l := (l.insert k.place .key).openBlock k.position.column k.place .openBlockMap
    some { l.emit .value with possibleKey := none, keyAllowed := false }
  | none => do
    let l ← l.dropKey?
    if l.inFlow then return { l.emit .value with keyAllowed := false }
    else if l.keyAllowed then
      return ((l.openBlock p.column l.count .openBlockMap).emit .value).allowKey
    else none

-- A mark that stands where a value does, or in front of one.
def part? (l : Layout) (p : Position) (t : Token) : Option Layout := do
  return (← l.beginKey? p).emit t

-- All tokens, once the text is at its end.
def finish? (l : Layout) : Option (List Token) := do
  let l ← (l.closeBlocks 0).dropKey?
  return (l.emit .endOfText).tokens.reverse

end Layout

end CypherCompiler.Yaml
