import Inlay.Text.CodePoint

/-!
# Binary floating point numbers

Double precision numbers by their bits: the nearest one to a decimal, and the shortest
decimal that reads back as a given one. All arithmetic is exact, on natural numbers.
-/

set_option autoImplicit false

namespace Inlay

/-- A double precision number, given by its 64 bits. -/
structure Binary64 where
  bits : UInt64
deriving Repr, DecidableEq

namespace Binary64

def isNegative (x : Binary64) : Bool := x.bits ≥ 0x8000000000000000

def exponentField (x : Binary64) : Nat := (x.bits.toNat / Nat.pow 2 52) % Nat.pow 2 11

def fractionField (x : Binary64) : Nat := x.bits.toNat % Nat.pow 2 52

def isFinite (x : Binary64) : Bool := x.exponentField < 0x7ff

def isUndefined (x : Binary64) : Bool := !x.isFinite && x.fractionField != 0

def isZero (x : Binary64) : Bool := x.exponentField == 0 && x.fractionField == 0

/-- The natural number `m` for which a finite number is `m * 2 ^ binaryExponent` in size. -/
def significand (x : Binary64) : Nat :=
  if x.exponentField = 0 then x.fractionField else x.fractionField + Nat.pow 2 52

def binaryExponent (x : Binary64) : Int :=
  if x.exponentField = 0 then -1074 else (x.exponentField : Int) - 1075

/-- The quotient of two natural numbers rounded to the nearest one, ties to the even. -/
def roundedQuotient (numerator denominator : Nat) : Nat :=
  let whole := numerator / denominator
  let twice := 2 * (numerator % denominator)
  if twice > denominator || (twice == denominator && whole % 2 == 1) then whole + 1 else whole

/-- The bits of the number nearest to `numerator / denominator`, without a sign. -/
def nearestBits (numerator denominator : Nat) : Nat :=
  if numerator = 0 then 0
  else
    let estimate : Int := (Nat.log2 numerator : Int) - (Nat.log2 denominator : Int) - 53
    let scaledAt (exponent : Int) : Nat × Nat :=
      if exponent < 0 then (numerator * Nat.pow 2 exponent.natAbs, denominator)
      else (numerator, denominator * Nat.pow 2 exponent.natAbs)
    let fits (exponent : Int) : Bool :=
      (scaledAt exponent).1 < Nat.pow 2 53 * (scaledAt exponent).2
    let smallest := max estimate (-1074)
    let exponent := if fits smallest then smallest else smallest + 1
    let mantissa := roundedQuotient (scaledAt exponent).1 (scaledAt exponent).2
    min ((exponent + 1074).toNat * Nat.pow 2 52 + mantissa) (0x7ff * Nat.pow 2 52)

/-- The number nearest to `± digits * 10 ^ exponent`. Decimals beyond every finite number, and
those closer to zero than to any other number, are told by their magnitude. -/
def ofDecimal (negative : Bool) (digits : Nat) (exponent : Int) : Binary64 :=
  let magnitude : Int := (Nat.toDigits 10 digits).length + exponent
  let size :=
    if digits = 0 || magnitude < -330 then 0
    else if magnitude > 310 then 0x7ff * Nat.pow 2 52
    else if exponent < 0 then nearestBits digits (Nat.pow 10 exponent.natAbs)
    else nearestBits (digits * Nat.pow 10 exponent.natAbs) 1
  ⟨UInt64.ofNat (size + if negative then Nat.pow 2 63 else 0)⟩

def infinity : Binary64 := ⟨0x7ff0000000000000⟩

def undefined : Binary64 := ⟨0x7ff8000000000000⟩

def negate (x : Binary64) : Binary64 := ⟨x.bits ^^^ 0x8000000000000000⟩

def zero : Binary64 := ⟨0⟩

def ofFraction (numerator denominator : Nat) : Binary64 :=
  ⟨UInt64.ofNat (nearestBits numerator denominator)⟩

def fraction (x : Binary64) : Nat × Nat :=
  (x.significand * Nat.pow 2 x.binaryExponent.toNat, Nat.pow 2 (-x.binaryExponent).toNat)

/-- The number nearest to the sum of two numbers that are not negative. -/
def add (x y : Binary64) : Binary64 :=
  if !x.isFinite || !y.isFinite then infinity
  else
    let (first, second) := (x.fraction, y.fraction)
    ofFraction (first.1 * second.2 + second.1 * first.2) (first.2 * second.2)

/-- The number nearest to a multiple of a number that is not negative. -/
def scale (factor : Nat) (x : Binary64) : Binary64 :=
  if !x.isFinite then infinity else ofFraction (factor * x.fraction.1) x.fraction.2

def truncate (x : Binary64) : Int :=
  let size := x.significand * Nat.pow 2 x.binaryExponent.toNat / Nat.pow 2 (-x.binaryExponent).toNat
  if x.isNegative then -(size : Int) else size

/-- Whether a number is finite and has no fraction. -/
def isWhole (x : Binary64) : Bool :=
  x.isFinite && x.significand % Nat.pow 2 (-x.binaryExponent).toNat == 0

/-- The reals that are nearest to a finite number, as twice or four times its neighbourhood:
low end, number and high end over a common denominator, and whether the ends belong to it. -/
structure Neighbourhood where
  low : Nat
  value : Nat
  high : Nat
  denominator : Nat
  closed : Bool

/-- The neighbourhood of a finite number. Below a power of two the gap is half as wide. -/
def neighbourhood (x : Binary64) : Neighbourhood :=
  let lowGap := if x.fractionField = 0 && x.exponentField > 1 then 1 else 2
  let up := Nat.pow 2 x.binaryExponent.toNat
  { low := (4 * x.significand - lowGap) * up
    value := 4 * x.significand * up
    high := (4 * x.significand + 2) * up
    denominator := 4 * Nat.pow 2 (-x.binaryExponent).toNat
    closed := x.significand % 2 == 0 }

namespace Neighbourhood

def holds (n : Neighbourhood) (digits : Nat) (exponent : Int) : Bool :=
  let point := digits * Nat.pow 10 exponent.toNat * n.denominator
  let unit := Nat.pow 10 (-exponent).toNat
  if n.closed then n.low * unit ≤ point && point ≤ n.high * unit
  else n.low * unit < point && point < n.high * unit

/-- The point of the grid of multiples of `10 ^ exponent` that lies in the neighbourhood and
is nearest to the value. -/
def nearestOnGrid? (n : Neighbourhood) (exponent : Int) : Option Nat :=
  let numerator := n.value * Nat.pow 10 (-exponent).toNat
  let denominator := n.denominator * Nat.pow 10 exponent.toNat
  let below := numerator / denominator
  let nearer := roundedQuotient numerator denominator
  let other := if nearer = below then below + 1 else below
  if n.holds nearer exponent then some nearer
  else if n.holds other exponent then some other else none

/-- The least `position` with the value below `10 ^ position`, searched upwards. -/
def pointPosition (n : Neighbourhood) : Nat → Int → Int
  | 0, position => position
  | fuel + 1, position =>
      if n.value * Nat.pow 10 (-position).toNat < n.denominator * Nat.pow 10 position.toNat then
        position
      else pointPosition n fuel (position + 1)

end Neighbourhood

/-- A shortest decimal: its digits, and the position of the point before the first digit. -/
structure ShortDecimal where
  digits : Text
  point : Int

/-- The shortest decimal that reads back as the given finite number that is not zero; of
several, the one nearest to it. -/
def shortest (x : Binary64) : ShortDecimal :=
  let n := x.neighbourhood
  let point := n.pointPosition 640 (-325)
  let found := (List.range' 1 17).findSome? fun (count : Nat) =>
    (n.nearestOnGrid? (point - count)).map fun digits => (digits, count)
  match found with
  | none => ⟨"0", 1⟩
  | some (digits, count) =>
      let numeral := Nat.toDigits 10 digits
      let carried : Int := (numeral.length : Int) - count
      ⟨(numeral.reverse.dropWhile (· == '0')).reverse.map .char, point + carried⟩

def exponentNumeral (exponent : Int) : Text :=
  let digits : Text := (Nat.toDigits 10 exponent.natAbs).map .char
  (if exponent < 0 then '-' else '+') :: (if digits.length < 2 then '0' :: digits else digits)

/-- A decimal is written positionally from one ten-thousandth up to below ten to the
sixteenth, always with a fraction, and with an exponent otherwise. -/
def ShortDecimal.text (d : ShortDecimal) : Text :=
  if d.point > 16 || d.point < -3 then
    let fraction := d.digits.drop 1
    let behind : Text := if fraction.isEmpty then [] else "." ++ fraction
    d.digits.take 1 ++ behind ++ "e" ++ exponentNumeral (d.point - 1)
  else if d.point ≤ 0 then
    "0." ++ List.replicate d.point.natAbs (CodePoint.char '0') ++ d.digits
  else
    let whole := d.point.toNat
    if d.digits.length ≤ whole then
      d.digits ++ List.replicate (whole - d.digits.length) (CodePoint.char '0') ++ ".0"
    else d.digits.take whole ++ "." ++ d.digits.drop whole

/-- The text of a number: the shortest decimal that reads back as it. -/
def text (x : Binary64) : Text :=
  if x.isUndefined then "nan"
  else
    let size : Text :=
      if !x.isFinite then "inf" else if x.isZero then "0.0" else x.shortest.text
    if x.isNegative then "-" ++ size else size

end Binary64

end Inlay
