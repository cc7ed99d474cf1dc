import CypherCompiler.Text.Character

namespace CypherCompiler.Json

-- A character of a text as it is written between quotes: as itself, or as a code unit.
inductive QuotedChar where
  | char (c : Char)
  | unit (code : Nat)
  deriving DecidableEq, Repr

-- A text as it is written between quotes.
abbrev Quoted := List QuotedChar

namespace Quoted

def isHighSurrogate (n : Nat) : Bool := 0xD800 ≤ n && n < 0xDC00
def isLowSurrogate (n : Nat) : Bool := 0xDC00 ≤ n && n < 0xE000

def shortEscape? : Char → Option Char
  | '"' => some '"'
  | '\\' => some '\\'
  | '/' => some '/'
  | 'b' => some '\x08'
  | 'f' => some '\x0c'
  | 'n' => some '\n'
  | 'r' => some '\r'
  | 't' => some '\t'
  | _ => none

-- Control characters stand only as escapes, and a backslash only in front of one.
def ofText? : List Char → Option Quoted
  | [] => some []
  | '\\' :: 'u' :: a :: b :: c :: d :: rest => do
    let code ← Text.hexNumber? [a, b, c, d]
    return .unit code :: (← ofText? rest)
  | '\\' :: c :: rest => do
    let plain ← shortEscape? c
    return .char plain :: (← ofText? rest)
  | c :: rest =>
    if c.toNat < 32 || c == '\\' then none else do return .char c :: (← ofText? rest)

-- The characters that are meant. Surrogates count only in pairs.
def chars? : Quoted → Option (List Char)
  | [] => some []
  | .char c :: rest => do return c :: (← chars? rest)
  | .unit high :: .unit low :: rest =>
    if isHighSurrogate high then
      if isLowSurrogate low then do
        let c := Char.ofNat (0x10000 + (high - 0xD800) * 0x400 + (low - 0xDC00))
        return c :: (← chars? rest)
      else none
    else if isLowSurrogate high then none
    else do return Char.ofNat high :: (← chars? (.unit low :: rest))
  | .unit code :: rest =>
    if isHighSurrogate code || isLowSurrogate code then none
    else do return Char.ofNat code :: (← chars? rest)

def text? (q : Quoted) : Option String := String.ofList <$> q.chars?

end Quoted

end CypherCompiler.Json
