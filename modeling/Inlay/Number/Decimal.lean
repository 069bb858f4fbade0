import Inlay.Number.Binary64
import Inlay.Text.Digit

/-!
# Decimal numerals

Numerals with an optional sign, point and exponent, and the numbers that they write.
-/

set_option autoImplicit false

namespace Inlay

def asciiValue (digits : Text) : Nat := digitsValue (digits.map fun c => c.toNat - '0'.toNat)

/-- A sign in front of a numeral, and what follows it. -/
def splitSign : Text → Bool × Text
  | .char '-' :: rest => (true, rest)
  | .char '+' :: rest => (false, rest)
  | rest => (false, rest)

/-- An exponent as an integer; the empty text is the exponent zero. -/
def exponent? : Text → Option Int
  | [] => some 0
  | c :: rest =>
      if c = 'e' ∨ c = 'E' then
        let (negative, digits) := splitSign rest
        if digits ≠ [] ∧ digits.all CodePoint.isDigit then
          some (if negative then -(asciiValue digits : Int) else asciiValue digits)
        else none
      else none

/-- The number that a numeral writes: digits on at least one side of an optional point, with
an optional exponent behind them. -/
def Binary64.ofNumeral? (numeral : Text) : Option Binary64 :=
  let (negative, unsigned) := splitSign numeral
  let whole := unsigned.takeWhile CodePoint.isDigit
  let behind := unsigned.dropWhile CodePoint.isDigit
  let (fraction, tail) :=
    match behind with
    | .char '.' :: rest => (rest.takeWhile CodePoint.isDigit, rest.dropWhile CodePoint.isDigit)
    | rest => ([], rest)
  if whole = [] ∧ fraction = [] then none
  else
    (exponent? tail).map fun exponent =>
      ofDecimal negative (asciiValue (whole ++ fraction)) (exponent - fraction.length)

end Inlay
