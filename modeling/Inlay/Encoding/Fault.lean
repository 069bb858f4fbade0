import Inlay.Text.Quoted
import Inlay.Text.Digit

/-!
# Coding faults

What can go wrong between bytes and characters, with the range that is to blame.
-/

set_option autoImplicit false

namespace Inlay

/-- Why bytes are not the code of a character. Encodings of their own kind have their own words for
it. -/
inductive DecodeCause where
  | startByte
  | continuationByte
  | endOfData
  | truncatedData
  | illegalEncoding
  | illegalSurrogate
  | beyondAscii
  | described (wording : Text)
deriving Repr, DecidableEq

/-- Bytes that could not be decoded: the code, the first byte, and the range in the file. -/
structure DecodeFault where
  code : String
  byte : UInt8
  position : Nat
  count : Nat
  cause : DecodeCause
deriving Repr, DecidableEq

/-- Why characters have no code: they are not among the first ones of all, they are halves of
characters, or for a reason that an encoding has its own words for. -/
inductive EncodeCause where
  | beyond (size : Nat)
  | halves
  | described (wording : Text)
deriving Repr, DecidableEq

/-- Characters that a code does not have: the code, the cause, the first character, and the
range in the text. -/
structure EncodeFault where
  code : String
  cause : EncodeCause
  char : CodePoint
  position : Nat
  count : Nat
deriving Repr, DecidableEq

def DecodeCause.wording : DecodeCause → Text
  | .startByte => "invalid start byte"
  | .continuationByte => "invalid continuation byte"
  | .endOfData => "unexpected end of data"
  | .truncatedData => "truncated data"
  | .illegalEncoding => "illegal encoding"
  | .illegalSurrogate => "illegal UTF-16 surrogate"
  | .beyondAscii => "ordinal not in range(128)"
  | .described wording => wording

/-- The wording of a decoding fault. One byte is shown, several are only located. -/
def DecodeFault.message (fault : DecodeFault) : Text :=
  if fault.count = 1 then
    s!"'{fault.code}' codec can't decode byte 0x" ++ hexNumeral 2 fault.byte.toNat ++
      s!" in position {fault.position}: " ++ fault.cause.wording
  else
    let last := fault.position + fault.count - 1
    s!"'{fault.code}' codec can't decode bytes in position {fault.position}-{last}: " ++
      fault.cause.wording

def EncodeCause.wording : EncodeCause → Text
  | .beyond size => s!"ordinal not in range({size})"
  | .halves => "surrogates not allowed"
  | .described wording => wording

/-- The wording of an encoding fault. One character is shown, several are only located. -/
def EncodeFault.message (fault : EncodeFault) : Text :=
  if fault.count = 1 then
    s!"'{fault.code}' codec can't encode character '" ++ escapeByCode fault.char ++
      s!"' in position {fault.position}: " ++ fault.cause.wording
  else
    let last := fault.position + fault.count - 1
    s!"'{fault.code}' codec can't encode characters in position {fault.position}-{last}: " ++
      fault.cause.wording

def consDecoded (c : CodePoint) : Except DecodeFault Text → Except DecodeFault Text
  | .ok text => .ok (c :: text)
  | .error fault => .error fault

end Inlay
