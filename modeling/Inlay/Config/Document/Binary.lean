import Inlay.Encoding.Basic

/-!
# Binary scalars

Bytes that are written with characters of six bits each, four of them for three bytes. Characters
that stand for no bits are passed over, and marks fill up the last group.
-/

set_option autoImplicit false

namespace Inlay

/-- Why a scalar writes no bytes: it has characters beyond ASCII, one character too many, or a
group that is not filled up. -/
inductive BinaryFault where
  | notAscii (fault : EncodeFault)
  | surplus (characters : Nat)
  | unfilled
deriving Repr, DecidableEq

def BinaryFault.message : BinaryFault → Text
  | .notAscii fault => "failed to convert base64 data into ascii: " ++ fault.message
  | .surplus characters =>
      "failed to decode base64 data: Invalid base64-encoded string: number of data characters " ++
        s!"({characters}) cannot be 1 more than a multiple of 4"
  | .unfilled => "failed to decode base64 data: Incorrect padding"

namespace Document

/-- The six bits that a character stands for. -/
def sextet? (c : CodePoint) : Option Nat :=
  if 'A' ≤ c ∧ c ≤ 'Z' then some (c.toNat - 'A'.toNat)
  else if 'a' ≤ c ∧ c ≤ 'z' then some (c.toNat - 'a'.toNat + 26)
  else if c.isDigit then some (c.toNat - '0'.toNat + 52)
  else if c = '+' then some 62
  else if c = '/' then some 63
  else none

/-- The bits that a text writes, six at a time, and whether its last group is complete. The first
two arguments count the characters of the group and the marks behind them. Nothing is read behind
the marks that fill a group up. -/
def sextets : Nat → Nat → Text → List Nat × Bool
  | place, _, [] => ([], place == 0)
  | place, marks, c :: text =>
      if c = '=' then
        if place < 2 then sextets place marks text
        else if place + marks + 1 < 4 then sextets place (marks + 1) text
        else ([], true)
      else
        match sextet? c with
        | none => sextets place marks text
        | some bits =>
            let (others, filled) := sextets ((place + 1) % 4) 0 text
            (bits :: others, filled)

def bytesOfSextets : List Nat → List UInt8
  | a :: b :: c :: d :: rest =>
      UInt8.ofNat (4 * a + b / 16) :: UInt8.ofNat (b % 16 * 16 + c / 4) ::
        UInt8.ofNat (c % 4 * 64 + d) :: bytesOfSextets rest
  | [a, b, c] => [UInt8.ofNat (4 * a + b / 16), UInt8.ofNat (b % 16 * 16 + c / 4)]
  | [a, b] => [UInt8.ofNat (4 * a + b / 16)]
  | _ => []

def bytesOfScalar (text : Text) : Except BinaryFault (List UInt8) :=
  match Encoding.encodeSingle "ascii" 128 0 text with
  | .error fault => .error (.notAscii fault)
  | .ok _ =>
      let (bits, filled) := sextets 0 0 text
      if filled then .ok (bytesOfSextets bits)
      else if bits.length % 4 = 1 then .error (.surplus bits.length)
      else .error .unfilled

/-- Marks fill up a group, and blanks between the characters are passed over. -/
example :
    (bytesOfScalar "aGk=").toOption = some [104, 105] ∧
      (bytesOfScalar "aG Vs\nbG8=").toOption = some [104, 101, 108, 108, 111] := by
  decide +kernel

end Document

end Inlay
