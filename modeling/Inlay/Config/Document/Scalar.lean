import Inlay.Config.Document.Property
import Inlay.Config.Value
import Inlay.Text.LetterCase

/-!
# Scalars

What a scalar stands for. A tag tells it; a scalar without one has the tag that its text asks
for: nothing, a truth value, an integer in one of four bases or in sixties, a decimal, a moment,
or else a text. Bytes are written by a scalar that a tag tells to be binary.
-/

set_option autoImplicit false

namespace Inlay.Document

/-! ## Tags -/

def standardLead : Text := "tag:yaml.org,2002:"

def standardTag (name : String) : Text := standardLead ++ name

def nullTag : Text := standardTag "null"

def boolTag : Text := standardTag "bool"

def intTag : Text := standardTag "int"

def floatTag : Text := standardTag "float"

def momentTag : Text := standardTag "timestamp"

def textTag : Text := standardTag "str"

def binaryTag : Text := standardTag "binary"

def sequenceTag : Text := standardTag "seq"

def mappingTag : Text := standardTag "map"

def setTag : Text := standardTag "set"

def orderedTag : Text := standardTag "omap"

def pairsTag : Text := standardTag "pairs"

def mergeTag : Text := standardTag "merge"

/-- The tag of names that stand for the value of a mapping itself. -/
def valueTag : Text := standardTag "value"

/-! ## Plain spellings -/

def nullSpellings : List Text := ["", "~", "null", "Null", "NULL"]

def trueSpellings : List Text :=
  ["yes", "Yes", "YES", "true", "True", "TRUE", "on", "On", "ON"]

def falseSpellings : List Text :=
  ["no", "No", "NO", "false", "False", "FALSE", "off", "Off", "OFF"]

/-- A digit, or an underscore between digits. -/
def isDigitOrGap (c : CodePoint) : Bool := c.isDigit || c == '_'

def infinitySpellings : List Text := [".inf", ".Inf", ".INF"]

def undefinedSpellings : List Text := [".nan", ".NaN", ".NAN"]

def isDigits (text : Text) : Bool := text.all isDigitOrGap

/-- Digits and underscores, the first of which is a digit. -/
def startsWithDigit (text : Text) : Bool :=
  (text.head?.map CodePoint.isDigit).getD false && isDigits text

/-- A place of a numeral in sixties: one digit, or two the first of which is below six. -/
def isSixtieth : Text → Bool
  | [digit] => digit.isDigit
  | [first, second] => first.isDigit && first < '6' && second.isDigit
  | _ => false

/-- Whether digits of a base are written, with underscores between them. -/
def areDigits (base : Nat) (digits : Text) : Bool :=
  !digits.isEmpty && digits.all fun c =>
    c == '_' || ((hexDigit? c).map fun digit => decide (digit < base)).getD false

def isNatural (unsigned : Text) : Bool :=
  match unsigned with
  | [.char '0'] => true
  | .char '0' :: .char 'b' :: digits => areDigits 2 digits
  | .char '0' :: .char 'x' :: digits => areDigits 16 digits
  | .char '0' :: digits => areDigits 8 digits
  | _ =>
      match Text.splitOn ':' unsigned with
      | first :: places => startsWithDigit first && places.all isSixtieth
      | [] => false

/-- Whether an exponent, if there is one, has a sign and digits. -/
def isSignedExponent : Text → Bool
  | [] => true
  | e :: sign :: digits =>
      (e == 'e' || e == 'E') && (sign == '+' || sign == '-') && !digits.isEmpty &&
        digits.all CodePoint.isDigit
  | _ => false

/-- Whether an unsigned text is a decimal with a point. A decimal without a digit in front of
the point has one behind it, and no sign. A decimal in sixties has no exponent. -/
def isPointed (hasSign : Bool) (unsigned : Text) : Bool :=
  match Text.cut? '.' unsigned with
  | none => false
  | some (whole, behind) =>
      let fraction := behind.takeWhile isDigitOrGap
      let tail := behind.dropWhile isDigitOrGap
      match Text.splitOn ':' whole with
      | [[]] => !hasSign && startsWithDigit fraction && isSignedExponent tail
      | [first] => startsWithDigit first && isSignedExponent tail
      | first :: places => startsWithDigit first && places.all isSixtieth && tail.isEmpty
      | [] => false

def isSpecialDecimal (hasSign : Bool) (unsigned : Text) : Bool :=
  infinitySpellings.contains unsigned || (!hasSign && undefinedSpellings.contains unsigned)

def plainTag (text : Text) : Text :=
  let (_, unsigned) := splitSign text
  let hasSign := unsigned.length < text.length
  if trueSpellings.contains text || falseSpellings.contains text then boolTag
  else if isPointed hasSign unsigned || isSpecialDecimal hasSign unsigned then floatTag
  else if isNatural unsigned then intTag
  else if text = "<<" then mergeTag
  else if nullSpellings.contains text then nullTag
  else if Moment.isMoment text then momentTag
  else if text = "=" then valueTag
  else textTag

/-! ## Values -/

def withoutUnderscores (text : Text) : Text := text.filter (· != '_')

/-- The truth value that a scalar writes, in any case of letters. -/
def truthOfScalar (text : Text) : Except ScalarFault Bool :=
  let spelled := lower text
  if trueSpellings.contains spelled then .ok true
  else if falseSpellings.contains spelled then .ok false
  else .error (.notTruth spelled)

def usualDigit (c : CodePoint) : CodePoint :=
  match digitValue? c with
  | some digit => .ofNat ('0'.toNat + digit)
  | none => c

def baseLetters : List (Nat × Text) := [(2, ['b', 'B']), (8, ['o', 'O']), (16, ['x', 'X'])]

/-- What follows the letter that tells a base, if there is one. -/
def behindBase (base : Nat) (unsigned : Text) : Text :=
  match unsigned with
  | .char '0' :: letter :: digits =>
      if ((baseLetters.lookup base).getD []).contains letter then digits else unsigned
  | _ => unsigned

/-- The integer that a text writes in a base for which the number of digits has no limit, with
blanks around it. -/
def inBase (base : Nat) (text : Text) : Except NumeralFault Int :=
  let trimmed := (text.dropWhile isNumeralBlank).reverse.dropWhile isNumeralBlank
  let (negative, unsigned) := splitSign (trimmed.reverse.map usualDigit)
  let digits := behindBase base unsigned
  if areDigits base digits then
    let size := digits.foldl (fun value c => base * value + ((hexDigit? c).getD 0)) 0
    .ok (if negative then -size else size)
  else .error (.malformed base text)

/-- The integer that a numeral in sixties writes, behind a value for the places in front. -/
def inSixties : Int → List Text → Except NumeralFault Int
  | value, [] => .ok value
  | value, place :: places => do
      let digit ← integerOfText place
      inSixties (60 * value + digit) places

/-- The integer that an unsigned text without underscores writes. -/
def naturalOfText (unsigned : Text) : Except NumeralFault Int :=
  match unsigned with
  | .char '0' :: .char 'b' :: digits => inBase 2 digits
  | .char '0' :: .char 'x' :: digits => inBase 16 digits
  | .char '0' :: _ => inBase 8 unsigned
  | _ => inSixties 0 (Text.splitOn ':' unsigned)

def integerOfScalar (text : Text) : Except ScalarFault Int :=
  let (negative, unsigned) := splitSign (withoutUnderscores text)
  if unsigned = [] then .error .emptyNumeral
  else
    match naturalOfText unsigned with
    | .ok size => .ok (if negative then -size else size)
    | .error fault => .error (.numeral fault)

/-- The decimal that a text in lower case writes, with blanks around it. -/
def decimalOfText (text : Text) : Except ScalarFault Binary64 :=
  let (negative, unsigned) := splitSign (Text.trim text)
  let size? :=
    if unsigned = "inf" ∨ unsigned = "infinity" then some .infinity
    else if unsigned = "nan" then some .undefined
    else if (splitSign unsigned).2.length < unsigned.length then none
    else Binary64.ofNumeral? (unsigned.map usualDigit)
  match size? with
  | none => .error (.notDecimal text)
  | some size => .ok (if negative && !size.isUndefined then size.negate else size)

/-- The decimal that the places of a numeral in sixties write, last place first: each one is
rounded as it is added. -/
def decimalInSixties : Nat → Binary64 → List Binary64 → Binary64
  | _, value, [] => value
  | weight, value, place :: places =>
      decimalInSixties (60 * weight) (value.add (place.scale weight)) places

def magnitudeOfText (unsigned : Text) : Except ScalarFault Binary64 :=
  if unsigned = ".inf" then .ok .infinity
  else if unsigned = ".nan" then .ok .undefined
  else
    match Text.splitOn ':' unsigned with
    | [_] => decimalOfText unsigned
    | places => (places.mapM decimalOfText).map fun places =>
        decimalInSixties 1 .zero places.reverse

def decimalOfScalar (text : Text) : Except ScalarFault Binary64 :=
  let written := lower (withoutUnderscores text)
  if written = [] then .error .emptyNumeral
  else
    let (negative, unsigned) := splitSign written
    match magnitudeOfText unsigned with
    | .error fault => .error fault
    | .ok size => .ok (if negative && !size.isUndefined then size.negate else size)

def momentOfScalar (text : Text) : Except ScalarFault Moment :=
  match Moment.ofText? text with
  | none => .error .notMoment
  | some moment =>
      match moment.fault? with
      | some fault => .error (.moment fault)
      | none => .ok moment

/-- The value that a scalar with a standard tag writes. Other tags tell nothing. -/
def standardValue? (tag text : Text) : Option (Except ScalarFault Value) :=
  if tag = textTag then some (.ok (.text text))
  else if tag = nullTag then some (.ok .null)
  else if tag = boolTag then some ((truthOfScalar text).map .bool)
  else if tag = intTag then some ((integerOfScalar text).map .int)
  else if tag = floatTag then some ((decimalOfScalar text).map .float)
  else if tag = momentTag then some ((momentOfScalar text).map .moment)
  else none

def scalarValue (tag text : Text) (mark : Mark) : Except DocumentFault Value :=
  if tag = binaryTag then
    match bytesOfScalar text with
    | .ok bytes => .ok (.bytes bytes)
    | .error fault => .error (.plain (.notBinary fault) mark)
  else
    match standardValue? tag text with
    | some (.ok value) => .ok value
    | some (.error fault) => .error (.scalar fault)
    | none => .error (.plain (.unknownTag tag) mark)

end Inlay.Document
