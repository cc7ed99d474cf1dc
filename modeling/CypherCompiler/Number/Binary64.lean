namespace CypherCompiler

-- The powers of two and ten, as far as they are whole.
def twoTo (n : Nat) : Nat := 1 <<< n
def tenTo (n : Nat) : Nat := Nat.pow 10 n

-- How many numbers there are between a power of two and the next one.
def binadeSize : Nat := twoTo 52

-- A finite binary floating-point number with 53 significant bits. `code` counts the
-- magnitudes in increasing order from zero, so it is the bit pattern without the sign bit
-- and two numbers of one sign compare as their codes do.
structure Binary64 where
  negative : Bool
  code : Fin (2047 * binadeSize)
  deriving DecidableEq, Repr

namespace Binary64

def zero (negative : Bool) : Binary64 := ⟨negative, 0, by decide⟩

-- The magnitude is `significand * 2 ^ exponent`. The first codes are the evenly spaced numbers
-- next to zero; above them every further binade doubles the spacing.
def significand (x : Binary64) : Nat :=
  if x.code.val < binadeSize then x.code.val else binadeSize + x.code.val % binadeSize

def exponent (x : Binary64) : Int :=
  if x.code.val < binadeSize then -1074 else (x.code.val / binadeSize : Nat) - 1075

-- Numerator and denominator of the magnitude.
def ratio (x : Binary64) : Nat × Nat :=
  if x.exponent < 0 then (x.significand, twoTo (-x.exponent).toNat)
  else (x.significand * twoTo x.exponent.toNat, 1)

-- The quotient rounded to the nearest whole number, a half going to the even neighbour.
def roundHalfEven (num den : Nat) : Nat :=
  let whole := num / den
  let rest := 2 * (num % den)
  if rest < den then whole
  else if den < rest then whole + 1
  else whole + whole % 2

-- Divide by a power of two that may be negative.
def scale (num den : Nat) (power : Int) : Nat × Nat :=
  if power < 0 then (num * twoTo (-power).toNat, den) else (num, den * twoTo power.toNat)

-- The exponent of the binade that holds `num / den`, never below the least spacing.
def binade (num den : Nat) : Int :=
  let guess : Int := (Nat.log2 num : Int) - Nat.log2 den - 52
  let (n, d) := scale num den guess
  max (-1074) (if n / d < binadeSize then guess - 1 else guess)

-- The representable number nearest to `num / den`, or `none` above the greatest one. A
-- significand that is rounded up to the next power of two carries into the next binade by the
-- addition alone.
def ofRatio? (negative : Bool) (num den : Nat) : Option Binary64 :=
  if num = 0 then some (zero negative)
  else
    let power := binade num den
    let (n, d) := scale num den power
    let code := (power + 1074).toNat * binadeSize + roundHalfEven n d
    if h : code < 2047 * binadeSize then some ⟨negative, code, h⟩ else none

def isZero (x : Binary64) : Bool := x.code.val == 0

-- Products and quotients of magnitudes are exact before the one rounding.
def scaleBy? (x : Binary64) (num den : Nat) : Option Binary64 :=
  ofRatio? x.negative (x.ratio.1 * num) (x.ratio.2 * den)

end Binary64

end CypherCompiler
