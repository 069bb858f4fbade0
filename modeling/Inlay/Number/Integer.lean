import Inlay.Number.Decimal
import Inlay.Text.Blank
import Inlay.Text.Quoted

/-!
# Integers in texts

The integer that a text or its bytes write, with blanks around it and single underscores between
its digits. Numerals that are not well formed, or that have too many digits, are refused.
-/

set_option autoImplicit false

namespace Inlay

/-- Why a text is not read as an integer. -/
inductive NumeralFault where
  | malformed (base : Nat) (text : Text)
  | malformedBytes (bytes : List UInt8)
  | oversized (digits : Nat)
deriving Repr, DecidableEq

def mostDigits : Nat := 4300

def shownNumeralLength : Nat := 200

def NumeralFault.message : NumeralFault → Text
  | .malformed base text =>
      s!"invalid literal for int() with base {base}: " ++ (quoted text).take shownNumeralLength
  | .malformedBytes bytes =>
      "invalid literal for int() with base 10: " ++ (quotedBytes bytes).take shownNumeralLength
  | .oversized digits =>
      s!"Exceeds the limit ({mostDigits} digits) for integer string conversion: " ++
        s!"value has {digits} digits; use sys.set_int_max_str_digits() to increase the limit"

/-- A blank that may stand around a numeral. The information separators may not. -/
def isNumeralBlank (c : CodePoint) : Bool := isBlank c && !(0x1c ≤ c.toNat && c.toNat ≤ 0x1f)

/-- The digits at the front of a text, with single underscores between them, and the text
behind them. The flag tells whether a digit has to come next. -/
def leadingDigits? : Bool → Text → Option (List Nat × Text)
  | needsDigit, [] => if needsDigit then none else some ([], [])
  | needsDigit, c :: text =>
      if c = '_' then if needsDigit then none else leadingDigits? true text
      else
        match digitValue? c with
        | some digit =>
            (leadingDigits? false text).map fun (digits, behind) => (digit :: digits, behind)
        | none => if needsDigit then none else some ([], c :: text)

/-- The integer that a text writes, with blanks around it. Digits are counted before it is
known what stands behind them. -/
def integerOfText (text : Text) : Except NumeralFault Int :=
  let (negative, unsigned) := splitSign (text.dropWhile isNumeralBlank)
  match leadingDigits? true unsigned with
  | none => .error (.malformed 10 text)
  | some (digits, behind) =>
      if digits.length > mostDigits then .error (.oversized digits.length)
      else if behind.all isNumeralBlank then
        .ok (if negative then -(digitsValue digits : Int) else digitsValue digits)
      else .error (.malformed 10 text)

/-- The character that stands for a byte. A byte that is no ASCII character stands for one that
is neither a digit nor a blank. -/
def CodePoint.ofByte (byte : UInt8) : CodePoint :=
  .ofNat (if byte < 0x80 then byte.toNat else 0xdc00 + byte.toNat)

/-- The integer that the characters of some bytes write. -/
def integerOfBytes (bytes : List UInt8) : Except NumeralFault Int :=
  (integerOfText (bytes.map .ofByte)).mapError fun
    | .malformed _ _ => .malformedBytes bytes
    | fault => fault

end Inlay
