import CypherCompiler.Yaml.Character

namespace CypherCompiler.Yaml

-- Line breaks between two pieces of a scalar, the first of which may be escaped.
inductive Breaks where
  | none
  | plain (first : Char) (more : List Char)
  | escaped (more : List Char)
  deriving DecidableEq, Repr

-- What stands between two pieces of a scalar: blanks of the first line, and breaks.
structure Gap where
  blanks : List Char
  breaks : Breaks
  deriving Repr

namespace Gap

def empty : Gap := ⟨[], .none⟩

def escapedBreak : Gap := ⟨[], .escaped []⟩

def isEmpty (g : Gap) : Bool := g.blanks.isEmpty && g.breaks == .none

def isMultiline (g : Gap) : Bool := g.breaks != .none

-- Blanks at the start of a line mean nothing.
def addBlank (g : Gap) (c : Char) : Gap :=
  if g.isMultiline then g else { g with blanks := g.blanks ++ [c] }

def addBreak (g : Gap) (c : Char) : Gap :=
  match g.breaks with
  | .none => { g with breaks := .plain c [] }
  | .plain first more => { g with breaks := .plain first (more ++ [c]) }
  | .escaped more => { g with breaks := .escaped (more ++ [c]) }

-- A single line feed becomes a space, and goes in front of further breaks. All other breaks
-- stay.
def fold (g : Gap) : List Char :=
  match g.breaks with
  | .none => g.blanks
  | .plain '\n' [] => [' ']
  | .plain '\n' more => more
  | .plain first more => first :: more
  | .escaped more => more

end Gap

-- What happens to the breaks at the end of a block scalar.
inductive Chomp where
  | strip
  | clip
  | keep
  deriving DecidableEq, Repr

-- A line of a block scalar with the break that ends it. Only the last one of a document can
-- be without.
structure BlockLine where
  text : List Char
  ending : Option Char
  deriving Repr

-- The text of a block scalar as far as its lines are read, last to first. `ending` is the break
-- after the last line that is not blank, and `blanks` are those of the blank lines since then,
-- last to first.
structure BlockText where
  text : List Char
  ending : Option Char
  blanks : List Char
  indented : Bool

namespace BlockText

def empty : BlockText := ⟨[], none, [], false⟩

-- The breaks after the text.
def breaks (b : BlockText) : List Char := b.blanks ++ b.ending.toList

-- Add a line. In a folded scalar a line feed between two lines that are not indented becomes a
-- space, and goes in front of further breaks.
def addLine (literal : Bool) (b : BlockText) (line : BlockLine) : BlockText :=
  if line.text.isEmpty then { b with blanks := line.ending.toList ++ b.blanks }
  else
    let indented := line.text.head?.any isBlank
    let joint :=
      if !literal && b.ending == some '\n' && !b.indented && !indented then
        if b.blanks.isEmpty then [' '] else b.blanks
      else b.breaks
    ⟨line.text.reverse ++ joint ++ b.text, line.ending, [], indented⟩

def finish (chomp : Chomp) (b : BlockText) : List Char :=
  match chomp with
  | .strip => b.text
  | .clip => b.ending.toList ++ b.text
  | .keep => b.breaks ++ b.text

-- The text of the lines of a block scalar.
def ofLines (literal : Bool) (chomp : Chomp) (lines : List BlockLine) : String :=
  String.ofList ((lines.foldl (addLine literal) empty).finish chomp).reverse

end BlockText

end CypherCompiler.Yaml
