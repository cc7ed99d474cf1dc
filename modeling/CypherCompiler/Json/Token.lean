import CypherCompiler.Json.Written

namespace CypherCompiler.Json

inductive Token where
  | openArr
  | closeArr
  | openObj
  | closeObj
  | comma
  | colon
  | scalar (value : Written)
  deriving Repr

namespace Token

-- Split at the closing quote; a backslash takes the character after it along.
def untilQuote? : List Char → Option (List Char × List Char)
  | [] => none
  | '"' :: rest => some ([], rest)
  | '\\' :: c :: rest => (untilQuote? rest).map fun (text, after) => ('\\' :: c :: text, after)
  | c :: rest => (untilQuote? rest).map fun (text, after) => (c :: text, after)

theorem untilQuote_length {cs text rest : List Char} (h : untilQuote? cs = some (text, rest)) :
    rest.length < cs.length := by
  fun_induction untilQuote? cs generalizing text rest with
  | case1 => simp at h
  | case2 => simp_all
  | case3 c cs ih =>
    obtain ⟨⟨t, r⟩, hr, he⟩ := Option.map_eq_some_iff.1 h
    have := ih hr
    simp_all only [Prod.mk.injEq, List.length_cons]
    omega
  | case4 c cs _ _ ih =>
    obtain ⟨⟨t, r⟩, hr, he⟩ := Option.map_eq_some_iff.1 h
    have := ih hr
    simp_all only [Prod.mk.injEq, List.length_cons]
    omega

def isBlank (c : Char) : Bool := c == ' ' || c == '\n' || c == '\t' || c == '\r'

def isNumeric (c : Char) : Bool :=
  c.isDigit || c == '-' || c == '+' || c == '.' || c == 'e' || c == 'E'

-- The tokens of a text, or `none` when some part of it belongs to no token.
def scan? : List Char → Option (List Token)
  | [] => some []
  | '[' :: cs => (Token.openArr :: ·) <$> scan? cs
  | ']' :: cs => (Token.closeArr :: ·) <$> scan? cs
  | '{' :: cs => (Token.openObj :: ·) <$> scan? cs
  | '}' :: cs => (Token.closeObj :: ·) <$> scan? cs
  | ',' :: cs => (Token.comma :: ·) <$> scan? cs
  | ':' :: cs => (Token.colon :: ·) <$> scan? cs
  | 'n' :: 'u' :: 'l' :: 'l' :: cs => (Token.scalar .null :: ·) <$> scan? cs
  | 't' :: 'r' :: 'u' :: 'e' :: cs => (Token.scalar (.bool true) :: ·) <$> scan? cs
  | 'f' :: 'a' :: 'l' :: 's' :: 'e' :: cs => (Token.scalar (.bool false) :: ·) <$> scan? cs
  | '"' :: cs =>
    match h : untilQuote? cs with
    | some (raw, rest) =>
      have := untilQuote_length h
      do
        let text ← Quoted.ofText? raw
        (Token.scalar (.str text) :: ·) <$> scan? rest
    | none => none
  | c :: cs =>
    if isBlank c then scan? cs
    else if isNumeric c then
      have := (List.dropWhile_suffix isNumeric (l := cs)).length_le
      do
        let n ← Numeral.ofText? (c :: cs.takeWhile isNumeric)
        (Token.scalar (.numeral n) :: ·) <$> scan? (cs.dropWhile isNumeric)
    else none
termination_by cs => cs.length

end Token

end CypherCompiler.Json
