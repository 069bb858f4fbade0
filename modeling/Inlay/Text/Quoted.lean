import Inlay.Text.Basic
import Inlay.Text.Unprintable

/-!
# Quoted text

The quoted form of a text in messages: quotes around it, escapes for the quote in use, the
backslash and every character without a printed form. Bytes are quoted likewise, behind a letter
that tells them from a text.
-/

set_option autoImplicit false

namespace Inlay

/-- The quote that needs no escape if there is one; a single quote otherwise. -/
def quoteFor (text : Text) : CodePoint :=
  if text.contains '\'' && !text.contains '"' then '"' else '\''

/-- The number in lower-case hexadecimal, filled up with zeros to the given width. -/
def hexNumeral (width n : Nat) : Text :=
  let digits : Text := (Nat.toDigits 16 n).map .char
  List.replicate (width - digits.length) (CodePoint.char '0') ++ digits

/-- The escape of a character by its code point, as short as the code point allows. -/
def escapeByCode (c : CodePoint) : Text :=
  let code := c.toNat
  if code < 0x100 then "\\x" ++ hexNumeral 2 code
  else if code < 0x10000 then "\\u" ++ hexNumeral 4 code
  else "\\U" ++ hexNumeral 8 code

def quotedChar (quote c : CodePoint) : Text :=
  if c == quote || c == '\\' then ['\\', c]
  else if c == '\n' then ['\\', 'n']
  else if c == '\r' then ['\\', 'r']
  else if c == '\t' then ['\\', 't']
  else if isUnprintable c then escapeByCode c
  else [c]

def quoted (text : Text) : Text :=
  let quote := quoteFor text
  quote :: text.flatMap (quotedChar quote) ++ [quote]

/-- A byte between quotes. One that is no ASCII character is always written by its number. -/
def quotedByte (quote : CodePoint) (byte : UInt8) : Text :=
  let c := CodePoint.ofNat byte.toNat
  if byte < 0x80 then quotedChar quote c else escapeByCode c

def quotedBytes (bytes : List UInt8) : Text :=
  let quote := quoteFor (bytes.map fun byte => CodePoint.ofNat byte.toNat)
  .char 'b' :: quote :: bytes.flatMap (quotedByte quote) ++ [quote]

end Inlay
