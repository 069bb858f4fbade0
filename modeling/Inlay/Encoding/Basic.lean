import Inlay.Encoding.Utf8
import Inlay.Encoding.Utf16

/-!
# Encodings

The common encodings by their names, with their two directions.
-/

set_option autoImplicit false

namespace Inlay

/-- An encoding of text files. -/
inductive Encoding where
  | utf8
  | markedUtf8
  | latin1
  | ascii
  | utf16
deriving Repr, DecidableEq

/-- Why a file could not be decoded: bytes without a character, no mark to tell the byte order by,
or what an encoding has its own words for. -/
inductive DecodingFailure where
  | bytes (fault : DecodeFault)
  | byteOrderUnknown
  | described (message : Text)
deriving Repr, DecidableEq

namespace Encoding

def isNameChar (c : CodePoint) : Bool := c.isAlphanum || c == '.'

/-- The name in lower case, with one underscore for each run of other characters between two
kept ones. The first argument tells whether a kept character came before, the second one
whether other characters came since. -/
def plainNameFrom : Bool → Bool → Text → Text
  | _, _, [] => []
  | started, gap, c :: name =>
      if isNameChar c then
        let kept := c.toLower :: plainNameFrom true false name
        if gap && started then '_' :: kept else kept
      else plainNameFrom started true name

def plainName (name : Text) : Text := plainNameFrom false false name

def names : List (Encoding × List Text) :=
  [(.utf8, ["utf_8", "utf8", "u8", "utf", "utf8_ucs2", "utf8_ucs4", "cp65001"]),
   (.markedUtf8, ["utf_8_sig"]),
   (.latin1, ["latin_1", "latin1", "latin", "l1", "iso_8859_1", "iso8859_1", "iso8859", "8859",
     "iso_8859_1_1987", "iso_ir_100", "cp819", "ibm819", "csisolatin1"]),
   (.ascii, ["ascii", "us_ascii", "us", "646", "iso646_us", "iso_646.irv_1991", "iso_ir_6",
     "ansi_x3.4_1968", "ansi_x3_4_1968", "ansi_x3.4_1986", "cp367", "ibm367", "csascii"]),
   (.utf16, ["utf_16", "utf16", "u16"])]

def ofName? (name : Text) : Option Encoding :=
  (names.find? fun (_, known) => known.contains (plainName name)).map (·.1)

/-- The characters of bytes that stand for one character each, up to a limit. -/
def decodeSingle (code : String) (limit : Nat) : Nat → List UInt8 → Except DecodeFault Text
  | _, [] => .ok []
  | position, byte :: bytes =>
      if byte.toNat < limit then
        consDecoded (.ofNat byte.toNat) (decodeSingle code limit (position + 1) bytes)
      else .error ⟨code, byte, position, 1, .beyondAscii⟩

/-- The bytes of characters below a limit, one each. A fault covers all the characters in a
row that are not below it. -/
def encodeSingle (code : String) (limit : Nat) : Nat → Text → Except EncodeFault (List UInt8)
  | _, [] => .ok []
  | position, c :: text =>
      if c.toNat < limit then
        match encodeSingle code limit (position + 1) text with
        | .ok bytes => .ok (UInt8.ofNat c.toNat :: bytes)
        | .error fault => .error fault
      else
        let row := text.takeWhile fun d => d.toNat ≥ limit
        .error ⟨code, .beyond limit, c, position, row.length + 1⟩

def ofBytes : Except DecodeFault Text → Except DecodingFailure Text
  | .ok text => .ok text
  | .error fault => .error (.bytes fault)

/-- The characters of a file in UTF-16. Without a mark the bytes are examined as
little-endian ones before the missing mark is reported. -/
def decodeUtf16 (bytes : List UInt8) : Except DecodingFailure Text :=
  match bytes with
  | 0xff :: 0xfe :: more => ofBytes (Utf16.decodeFrom .littleEndian 2 more)
  | 0xfe :: 0xff :: more => ofBytes (Utf16.decodeFrom .bigEndian 2 more)
  | [] => .ok []
  | bytes =>
      match Utf16.decodeFrom .littleEndian 0 bytes with
      | .ok _ => .error .byteOrderUnknown
      | .error fault => .error (.bytes fault)

def decode (encoding : Encoding) (bytes : List UInt8) : Except DecodingFailure Text :=
  match encoding with
  | .utf8 => ofBytes (Utf8.decode bytes)
  | .markedUtf8 => ofBytes (Utf8.decodeMarked bytes)
  | .latin1 => ofBytes (decodeSingle "latin-1" 256 0 bytes)
  | .ascii => ofBytes (decodeSingle "ascii" 128 0 bytes)
  | .utf16 => decodeUtf16 bytes

def encode (encoding : Encoding) (text : Text) : Except EncodeFault (List UInt8) :=
  match encoding with
  | .utf8 => Utf8.encodeWhole text
  | .markedUtf8 => (Utf8.encodeWhole text).map (Utf8.mark ++ ·)
  | .latin1 => encodeSingle "latin-1" 256 0 text
  | .ascii => encodeSingle "ascii" 128 0 text
  | .utf16 => Utf16.encodeWhole text

end Encoding

def unifyLineBreaks : Text → Text
  | [] => []
  | .char '\r' :: .char '\n' :: text => '\n' :: unifyLineBreaks text
  | .char '\r' :: text => '\n' :: unifyLineBreaks text
  | c :: text => c :: unifyLineBreaks text

end Inlay
