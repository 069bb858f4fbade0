import Inlay.Encoding.Fault

/-!
# UTF-16

One or two units of two bytes per character. The first unit of a file is a mark that tells
the order of the bytes in each unit.
-/

set_option autoImplicit false

namespace Inlay.Utf16

/-- The order of the two bytes of a unit. -/
inductive ByteOrder where
  | littleEndian
  | bigEndian
deriving Repr, DecidableEq

def ByteOrder.code : ByteOrder → String
  | .littleEndian => "utf-16-le"
  | .bigEndian => "utf-16-be"

def ByteOrder.unit (order : ByteOrder) (first second : UInt8) : Nat :=
  match order with
  | .littleEndian => first.toNat + 256 * second.toNat
  | .bigEndian => 256 * first.toNat + second.toNat

def isHighSurrogate (unit : Nat) : Bool := 0xd800 ≤ unit && unit < 0xdc00

def isLowSurrogate (unit : Nat) : Bool := 0xdc00 ≤ unit && unit < 0xe000

def decodeFrom (order : ByteOrder) (position : Nat) : List UInt8 → Except DecodeFault Text
  | [] => .ok []
  | [last] => .error ⟨order.code, last, position, 1, .truncatedData⟩
  | first :: second :: more =>
      let unit := order.unit first second
      if isHighSurrogate unit then
        match more with
        | third :: fourth :: more =>
            let next := order.unit third fourth
            if isLowSurrogate next then
              consDecoded (.ofNat (0x10000 + (unit - 0xd800) * 0x400 + (next - 0xdc00)))
                (decodeFrom order (position + 4) more)
            else .error ⟨order.code, first, position, 2, .illegalSurrogate⟩
        | rest => .error ⟨order.code, first, position, 2 + rest.length, .endOfData⟩
      else if isLowSurrogate unit then .error ⟨order.code, first, position, 2, .illegalEncoding⟩
      else consDecoded (.ofNat unit) (decodeFrom order (position + 2) more)

def unitBytes (unit : Nat) : List UInt8 := [UInt8.ofNat (unit % 256), UInt8.ofNat (unit / 256)]

def encodeChar (c : CodePoint) : List UInt8 :=
  if c.toNat < 0x10000 then unitBytes c.toNat
  else
    let offset := c.toNat - 0x10000
    unitBytes (0xd800 + offset / 0x400) ++ unitBytes (0xdc00 + offset % 0x400)

/-- The bytes of a text: the mark, then each character. -/
def encode (text : Text) : List UInt8 := 0xff :: 0xfe :: text.flatMap encodeChar

/-- The first half of a character in a text, from a position on. -/
def firstHalf? : Nat → Text → Option EncodeFault
  | _, [] => none
  | position, c :: text =>
      if c.isHalf then some ⟨"utf-16", .halves, c, position, 1⟩
      else firstHalf? (position + 1) text

/-- The bytes of a text in a file. Halves of characters are refused there. -/
def encodeWhole (text : Text) : Except EncodeFault (List UInt8) :=
  match firstHalf? 0 text with
  | some fault => .error fault
  | none => .ok (encode text)

end Inlay.Utf16
