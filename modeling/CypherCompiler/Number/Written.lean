import CypherCompiler.Number.Shortest

namespace CypherCompiler

-- How a decimal is written: numbers whose leading digit has a place in `low .. high` stand
-- in positional form with at least one decimal, all others with an exponent that always
-- shows its sign.
structure WrittenForm where
  low : Int
  high : Int

namespace WrittenForm

def plain : WrittenForm := ⟨-5, 15⟩

-- Trailing zeros carry no information: they move into the exponent.
def stripZeros (digits : List Char) : List Char × Nat :=
  let kept := (digits.reverse.dropWhile (· == '0')).reverse
  (kept, digits.length - kept.length)

def exponentForm (digits : List Char) (place : Int) : String :=
  let mantissa := match digits with
    | [] => ""
    | [d] => d.toString
    | d :: rest => d.toString ++ "." ++ String.ofList rest
  mantissa ++ "e" ++ (if place < 0 then "-" else "+") ++ toString place.natAbs

def positional (digits : List Char) (place : Int) : String :=
  if place < 0 then
    "0." ++ String.ofList (List.replicate (-place - 1).toNat '0' ++ digits)
  else
    let width := place.toNat + 1
    let whole := digits.take width ++ List.replicate (width - digits.length) '0'
    let rest := digits.drop width
    String.ofList whole ++ "." ++ (if rest.isEmpty then "0" else String.ofList rest)

def magnitude (style : WrittenForm) (d : Binary64.Decimal) : String :=
  let (digits, zeros) := stripZeros (Nat.toDigits 10 d.digits)
  if digits.isEmpty then "0.0"
  else
    let place := d.exponent + zeros + digits.length - 1
    if style.low ≤ place ∧ place ≤ style.high then positional digits place
    else exponentForm digits place

end WrittenForm

namespace Binary64

def text (x : Binary64) : String :=
  (if x.negative then "-" else "") ++ WrittenForm.plain.magnitude x.shortest

end Binary64

end CypherCompiler
