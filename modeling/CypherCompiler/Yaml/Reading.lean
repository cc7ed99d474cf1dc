import CypherCompiler.Yaml.Folding
import CypherCompiler.Yaml.Layout

namespace CypherCompiler.Yaml

-- A scalar that is being read, last character first, and the gap after it.
structure Piece where
  text : List Char
  gap : Gap
  deriving Repr

namespace Piece

def empty : Piece := ⟨[], .empty⟩

-- The gap belongs to the text as soon as more of the scalar follows.
def settle (p : Piece) : Piece := ⟨p.gap.fold.reverse ++ p.text, .empty⟩

def push (p : Piece) (c : Char) : Piece :=
  let p := p.settle
  { p with text := c :: p.text }

def addSpace (p : Piece) (c : Char) : Piece :=
  { p with gap := if isBreak c then p.gap.addBreak c else p.gap.addBlank c }

def escapeBreak (p : Piece) : Piece := { p.settle with gap := .escapedBreak }

def string (p : Piece) : String := String.ofList p.text.reverse

end Piece

-- What the first line of a block scalar says.
structure BlockHeader where
  literal : Bool
  chomp : Option Chomp
  increment : Option Nat
  blank : Bool
  comment : Bool
  deriving Repr

-- A block scalar that is being read. The indentation is that of its first line unless it was
-- given. `current` is the open line, as far as it goes beyond the indentation.
structure BlockBody where
  literal : Bool
  chomp : Chomp
  least : Nat
  indent : Option Nat
  deepest : Nat
  lines : List BlockLine
  current : Option (List Char)
  deriving Repr

inductive Mode where
  | between
  | comment
  | plain (piece : Piece)
  | single (piece : Piece)
  | double (piece : Piece)
  | header (header : BlockHeader)
  | body (body : BlockBody)
  deriving Repr

-- How far a document is read. Characters that belong to a mark which is read already are to be
-- passed over.
structure Reading where
  position : Position
  skip : Nat
  mode : Mode
  layout : Layout
  deriving Repr

namespace Reading

def initial : Reading := ⟨.lineStart, 0, .between, .empty⟩

def column (r : Reading) : Nat := r.position.column

def withLayout (r : Reading) (l : Layout) : Reading := { r with layout := l }

def emitScalar (r : Reading) (text : String) (style : Style) : Reading :=
  { r with mode := .between, layout := r.layout.emit (.scalar text style) }

-- Three equal characters at the start of a line that mark the start or the end of a document.
def documentMark? (r : Reading) (c : Char) (rest : List Char) : Option Token :=
  if r.column == 0 && rest.take 2 == [c, c] && endsMark (rest.drop 2) then
    if c == '-' then some .documentStart else if c == '.' then some .documentEnd else none
  else none

-- The name of an anchor, which not every mark may follow.
def anchorName? (rest : List Char) : Option String :=
  let name := rest.takeWhile isNameChar
  let next := rest.dropWhile isNameChar
  if !name.isEmpty && (endsMark next || next.head?.any ("?:,]\x7d%@`".contains ·)) then
    some (String.ofList name)
  else none

def anchor? (r : Reading) (rest : List Char) (token : String → Token) : Option Reading := do
  let name ← anchorName? rest
  return { r with skip := name.length, layout := ← r.layout.part? r.position (token name) }

-- A tag ends at a blank or a break, or at a comma of a flow group.
def tag? (r : Reading) (rest : List Char) : Option Reading := do
  let (tag, next) ← WrittenTag.read? rest
  if !endsMark next && !(r.layout.inFlow && next.head? == some ',') then none
  return {
    r with
    skip := rest.length - next.length
    layout := ← r.layout.part? r.position (.tag tag) }

-- A directive takes the break of its line with it, after which no key may begin.
def directive? (r : Reading) (rest : List Char) : Option Reading := do
  let line := rest.takeWhile (!isBreak ·)
  let directive ← Directive.read? line
  return { r with skip := line.length + 1, layout := ← r.layout.margin? (.directive directive) }

def beginScalar? (r : Reading) (mode : Mode) : Option Reading := do
  return { r with mode := mode, layout := ← r.layout.beginKey? r.position }

def beginBlock? (r : Reading) (literal : Bool) : Option Reading := do
  let layout ← r.layout.dropKey?
  return { r with mode := .header ⟨literal, none, none, false, false⟩, layout := layout.allowKey }

-- The first character of a mark, which is no space, break or comment.
def startMark? (r : Reading) (c : Char) (rest : List Char) : Option Reading :=
  let r := r.withLayout (r.layout.closeBlocks (r.column + 1))
  let l := r.layout
  let plain := r.beginScalar? (.plain (Piece.empty.push c))
  if c == '%' && r.column == 0 then r.directive? rest
  else match r.documentMark? c rest with
    | some t => do return { r with skip := 2, layout := ← l.margin? t }
    | none =>
      match c with
      | '[' => r.withLayout <$> l.openFlow? r.position .openSeq
      | '{' => r.withLayout <$> l.openFlow? r.position .openMap
      | ']' => r.withLayout <$> l.closeFlow? .closeSeq
      | '}' => r.withLayout <$> l.closeFlow? .closeMap
      | ',' => r.withLayout <$> l.comma?
      | '-' => if endsMark rest then r.withLayout <$> l.dash? r.position else plain
      | '?' =>
        if l.inFlow || endsMark rest then r.withLayout <$> l.keyMark? r.position else plain
      | ':' =>
        if l.inFlow || endsMark rest then r.withLayout <$> l.valueMark? r.position else plain
      | '&' => r.anchor? rest .anchor
      | '*' => r.anchor? rest .reference
      | '!' => r.tag? rest
      | '|' | '>' => if l.inFlow then none else r.beginBlock? (c == '|')
      | '\'' => r.beginScalar? (.single .empty)
      | '"' => r.beginScalar? (.double .empty)
      | '%' | '@' | '`' | '\t' => none
      | _ => plain

-- A character between marks. A tab may separate marks but not indent them. A byte order mark may
-- stand at the start of a line, where it takes up a column.
def between? (r : Reading) (c : Char) (rest : List Char) : Option Reading :=
  if isBreak c then some (r.withLayout r.layout.nextLine)
  else if c == byteOrderMark && r.column == 0 then some r
  else if c == ' ' || (c == '\t' && (r.layout.inFlow || !r.layout.keyAllowed)) then some r
  else if c == '#' then some { r with mode := .comment }
  else r.startMark? c rest

def comment (r : Reading) (c : Char) : Reading :=
  if isBreak c then { r with mode := .between, layout := r.layout.nextLine } else r

-- After a plain scalar of which a line break was read a key may begin.
def endPlain (r : Reading) (p : Piece) : Reading :=
  let r := r.emitScalar p.string .plain
  if p.gap.isMultiline then r.withLayout r.layout.allowKey else r

-- A plain scalar ends in front of a comment, the colon of a key, a mark of a flow group, a mark
-- of the document, and a line that does not go deeper than its block.
def plain? (r : Reading) (p : Piece) (c : Char) (rest : List Char) : Option Reading :=
  let outside := p.gap.isMultiline && r.column < r.layout.leastColumn
  if isBreak c || isBlank c then
    if c == '\t' && outside then none else some { r with mode := .plain (p.addSpace c) }
  else if (outside && !r.layout.inFlow) || (r.documentMark? c rest).isSome ||
      (c == '#' && !p.gap.isEmpty) || (c == ':' && endsMark rest) ||
      (r.layout.inFlow && isFlowMark c) then
    (r.endPlain p).between? c rest
  else if r.layout.inFlow && c == ':' && rest.head?.any (fun n => isFlowMark n || n == '?') then
    none
  else some { r with mode := .plain (p.push c) }

def single? (r : Reading) (p : Piece) (c : Char) (rest : List Char) : Option Reading :=
  if isBreak c || isBlank c then some { r with mode := .single (p.addSpace c) }
  else if (r.documentMark? c rest).isSome then none
  else if c != '\'' then some { r with mode := .single (p.push c) }
  else if rest.head? == some '\'' then some { r with mode := .single (p.push c), skip := 1 }
  else some (r.emitScalar p.settle.string .quoted)

def shortEscape? : Char → Option Char
  | '0' => some '\x00'
  | 'a' => some '\x07'
  | 'b' => some '\x08'
  | 't' | '\t' => some '\t'
  | 'n' => some '\n'
  | 'v' => some '\x0b'
  | 'f' => some '\x0c'
  | 'r' => some '\r'
  | 'e' => some '\x1b'
  | ' ' => some ' '
  | '"' => some '"'
  | '/' => some '/'
  | '\\' => some '\\'
  | 'N' => some '\u0085'
  | '_' => some '\u00a0'
  | 'L' => some '\u2028'
  | 'P' => some '\u2029'
  | _ => none

def codeLength? : Char → Option Nat
  | 'x' => some 2
  | 'u' => some 4
  | 'U' => some 8
  | _ => none

-- The character written by exactly `length` hexadecimal digits.
def charOfCode? (length : Nat) (digits : List Char) : Option Char := do
  if digits.length < length then none
  let code ← Text.hexNumber? digits
  if h : code.isValidChar then some (Char.ofNatAux code h) else none

-- What follows a backslash.
def escape? (r : Reading) (p : Piece) : List Char → Option Reading
  | [] => none
  | c :: rest =>
    if isBreak c then some { r with mode := .double p.escapeBreak, skip := 1 }
    else match codeLength? c with
      | some length => do
        let decoded ← charOfCode? length (rest.take length)
        return { r with mode := .double (p.push decoded), skip := length + 1 }
      | none => do
        let decoded ← shortEscape? c
        return { r with mode := .double (p.push decoded), skip := 1 }

def double? (r : Reading) (p : Piece) (c : Char) (rest : List Char) : Option Reading :=
  if isBreak c || isBlank c then some { r with mode := .double (p.addSpace c) }
  else if (r.documentMark? c rest).isSome then none
  else if c == '"' then some (r.emitScalar p.settle.string .quoted)
  else if c == '\\' then r.escape? p rest
  else some { r with mode := .double (p.push c) }

-- The body after a header. Its indentation is counted from that of the block around it.
def beginBody (r : Reading) (h : BlockHeader) : Reading :=
  let outer := r.layout.leastColumn - 1
  { r with
    mode := .body {
      literal := h.literal
      chomp := h.chomp.getD .clip
      least := max 1 r.layout.leastColumn
      indent := h.increment.map (outer + ·)
      deepest := 0
      lines := []
      current := none } }

def header? (r : Reading) (h : BlockHeader) (c : Char) : Option Reading :=
  if isBreak c then some (r.beginBody h)
  else if h.comment then some r
  else if c == '#' then some { r with mode := .header { h with comment := true } }
  else if isBlank c then some { r with mode := .header { h with blank := true } }
  else if h.blank then none
  else if (c == '-' || c == '+') && h.chomp.isNone then
    some { r with mode := .header { h with chomp := some (if c == '-' then .strip else .keep) } }
  else if c.isDigit && c != '0' && h.increment.isNone then
    some { r with mode := .header { h with increment := some (c.toNat - '0'.toNat) } }
  else none

def endBody (r : Reading) (b : BlockBody) : Reading :=
  let lines : List BlockLine := match b.current with
    | some line => ⟨line.reverse, none⟩ :: b.lines
    | none => b.lines
  r.emitScalar (BlockText.ofLines b.literal b.chomp lines.reverse)
    (if b.literal then .literal else .folded)

-- The first line that is not blank fixes the indentation, which blank lines in front of it can
-- make too deep for it. A tab cannot be part of the indentation.
def body? (r : Reading) (b : BlockBody) (c : Char) (rest : List Char) : Option Reading :=
  match b.current with
  | some line =>
    if isBreak c then
      some { r with
        mode := .body { b with lines := ⟨line.reverse, some c⟩ :: b.lines, current := none } }
    else some { r with mode := .body { b with current := some (c :: line) } }
  | none =>
    let indenting := b.indent.all (r.column < ·)
    if isBreak c then
      let lines := ⟨[], some c⟩ :: b.lines
      some { r with mode := .body { b with lines := lines, deepest := max b.deepest r.column } }
    else if indenting && c == ' ' then some r
    else if indenting && c == '\t' then none
    else
      let indent := b.indent.getD (max b.least (max b.deepest r.column))
      if r.column < indent then (r.endBody b).between? c rest
      else some { r with mode := .body { b with indent := some indent, current := some [c] } }

def react? (r : Reading) (c : Char) (rest : List Char) : Option Reading :=
  match r.mode with
  | .between => r.between? c rest
  | .comment => some (r.comment c)
  | .plain p => r.plain? p c rest
  | .single p => r.single? p c rest
  | .double p => r.double? p c rest
  | .header h => r.header? h c
  | .body b => r.body? b c rest

-- Go past a character.
def advance? (r : Reading) (c : Char) : Option Reading := do
  if isBreak c then return { r with position := .lineStart, layout := ← r.layout.endLine? }
  else return { r with position := r.position.after c }

-- Read one character, with what follows it.
def step? (r : Reading) (c : Char) (rest : List Char) : Option Reading :=
  if r.skip = 0 then do (← r.react? c rest).advance? c
  else ({ r with skip := r.skip - 1 } : Reading).advance? c

def readAll? (r : Reading) : List Char → Option Reading
  | [] => some r
  | c :: rest => do (← r.step? c rest).readAll? rest

-- The tokens of a document, once all of it is read.
def finish? (r : Reading) : Option (List Token) :=
  match r.mode with
  | .between | .comment => r.layout.finish?
  | .plain p => (r.endPlain p).layout.finish?
  | .header h =>
    match (r.beginBody h).mode with
    | .body b => (r.endBody b).layout.finish?
    | _ => none
  | .body b => (r.endBody b).layout.finish?
  | .single _ | .double _ => none

end Reading

-- The tokens of a document, or `none` where some mark is out of place.
def tokens? (text : String) : Option (List Token) := do
  if !text.toList.all isPrintable then none
  (← Reading.initial.readAll? (normalizeBreaks text.toList)).finish?

end CypherCompiler.Yaml
