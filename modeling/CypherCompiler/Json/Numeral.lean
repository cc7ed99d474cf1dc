import CypherCompiler.Json.Basic

namespace CypherCompiler.Json

-- A number as it is written, digit by digit. A numeral with a point has a fraction that is not
-- empty.
structure Numeral where
  negative : Bool
  whole : List Nat
  fraction : List Nat
  exponent : Option Int
  deriving DecidableEq, Repr

namespace Numeral

-- The significant digits read so far: `value * 10 ^ exponent`.
structure Significand where
  value : Nat
  exponent : Int

def fits (n : Nat) : Bool := n < twoTo 64

def digitValue (c : Char) : Nat := c.toNat - '0'.toNat

-- Digits that no longer fit 64 bits only raise the exponent.
def Significand.addWhole (s : Significand) (d : Nat) : Significand :=
  if s.exponent = 0 && fits (s.value * 10 + d) then ⟨s.value * 10 + d, 0⟩
  else ⟨s.value, s.exponent + 1⟩

-- Fraction digits are dropped from the first one that no longer fits 64 bits.
def Significand.addFraction (s : Significand) : List Nat → Significand
  | [] => s
  | d :: ds =>
    if fits (s.value * 10 + d) then addFraction ⟨s.value * 10 + d, s.exponent - 1⟩ ds else s

-- A power of ten rounded to a floating-point number, which is whole again; none of those used
-- here is too large.
def roundedTenTo (n : Nat) : Nat :=
  match Binary64.ofRatio? false (tenTo n) 1 with
  | some x => x.ratio.1 / x.ratio.2
  | none => 1

-- Multiply by a power of ten with one rounding for each factor of at most `10 ^ 308`.
def scaleByTen? (x : Binary64) (e : Int) : Option Binary64 :=
  if e.natAbs ≤ 308 then
    if 0 ≤ e then x.scaleBy? (roundedTenTo e.natAbs) 1 else x.scaleBy? 1 (roundedTenTo e.natAbs)
  else if x.isZero then some x
  else if 0 ≤ e then none
  else do scaleByTen? (← x.scaleBy? 1 (roundedTenTo 308)) (e + 308)
termination_by (-e).toNat

def Significand.float? (s : Significand) (negative : Bool) : Option Number := do
  let x ← scaleByTen? (← Binary64.ofRatio? false s.value 1) s.exponent
  return .float { x with negative := negative }

-- Exponents beyond 31 bits give zero, or no number at all when the value would be infinite.
def Significand.raise? (s : Significand) (negative : Bool) (e : Int) : Option Number :=
  if e.natAbs < twoTo 31 then float? { s with exponent := s.exponent + e } negative
  else if s.value ≠ 0 && 0 < e then none
  else some (.float (.zero negative))

-- A numeral without point and exponent is a whole number as long as it is in range.
def wholeNumber? (negative : Bool) (s : Significand) : Option Number :=
  let n : Int := if negative then -s.value else s.value
  if s.exponent = 0 && leastInt ≤ n && !(negative && s.value == 0) then some (.int n)
  else s.float? negative

-- The number that a numeral denotes, unless it is too large for floating point.
def number? (n : Numeral) : Option Number :=
  let s := n.whole.foldl Significand.addWhole ⟨0, 0⟩
  match n.fraction, n.exponent with
  | [], none => wholeNumber? n.negative s
  | ds, none => (s.addFraction ds).float? n.negative
  | ds, some e => (s.addFraction ds).raise? n.negative e

def isExponentMark (c : Char) : Bool := c == 'e' || c == 'E'

-- An exponent after its mark: an optional sign and at least one digit.
def signed? (cs : List Char) : Option Int :=
  let (negative, digits) := match cs with
    | '-' :: rest => (true, rest)
    | '+' :: rest => (false, rest)
    | _ => (false, cs)
  if digits.isEmpty || !digits.all Char.isDigit then none
  else
    let n := digits.foldl (fun n c => n * 10 + digitValue c) 0
    some (if negative then -n else n)

def exponent? : List Char → Option (Option Int)
  | [] => some none
  | c :: rest => if isExponentMark c then some <$> signed? rest else none

def unsigned? (negative : Bool) (cs : List Char) : Option Numeral := do
  let whole := cs.takeWhile Char.isDigit
  if whole.isEmpty || (whole.head? == some '0' && 1 < whole.length) then none
  match cs.dropWhile Char.isDigit with
  | '.' :: rest =>
    let fraction := rest.takeWhile Char.isDigit
    if fraction.isEmpty then none
    let exponent ← exponent? (rest.dropWhile Char.isDigit)
    return ⟨negative, whole.map digitValue, fraction.map digitValue, exponent⟩
  | rest => return ⟨negative, whole.map digitValue, [], ← exponent? rest⟩

-- A numeral as JSON has it: no sign but a minus, no zeros in front.
def ofText? : List Char → Option Numeral
  | '-' :: cs => unsigned? true cs
  | cs => unsigned? false cs

end Numeral

end CypherCompiler.Json
