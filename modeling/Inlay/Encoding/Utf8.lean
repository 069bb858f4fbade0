import Inlay.Encoding.Fault

/-!
# UTF-8

One to four bytes per character. A fault covers the bytes that began a character properly, or
the one byte that cannot begin any.
-/

set_option autoImplicit false

namespace Inlay.Utf8

def isContinuation (byte : UInt8) : Bool := 0x80 ≤ byte && byte ≤ 0xbf

/-- Whether a byte may follow the first byte of three or four. The bounds keep out long
spellings, surrogates and code points beyond the last one. -/
def mayFollow (first second : UInt8) : Bool :=
  if first = 0xe0 then 0xa0 ≤ second && second ≤ 0xbf
  else if first = 0xed then 0x80 ≤ second && second ≤ 0x9f
  else if first = 0xf0 then 0x90 ≤ second && second ≤ 0xbf
  else if first = 0xf4 then 0x80 ≤ second && second ≤ 0x8f
  else isContinuation second

def payload (byte : UInt8) : Nat := byte.toNat % 64

def fault (first : UInt8) (position count : Nat) (cause : DecodeCause) : DecodeFault :=
  ⟨"utf-8", first, position, count, cause⟩

def decodeFrom (position : Nat) : List UInt8 → Except DecodeFault Text
  | [] => .ok []
  | first :: more =>
      if first < 0x80 then
        consDecoded (.ofNat first.toNat) (decodeFrom (position + 1) more)
      else if first < 0xc2 then .error (fault first position 1 .startByte)
      else if first < 0xe0 then
        match more with
        | [] => .error (fault first position 1 .endOfData)
        | second :: more =>
            if isContinuation second then
              consDecoded (.ofNat (first.toNat % 32 * 64 + payload second))
                (decodeFrom (position + 2) more)
            else .error (fault first position 1 .continuationByte)
      else if first < 0xf0 then
        match more with
        | [] => .error (fault first position 1 .endOfData)
        | second :: more =>
            if mayFollow first second then
              match more with
              | [] => .error (fault first position 2 .endOfData)
              | third :: more =>
                  if isContinuation third then
                    consDecoded
                      (.ofNat ((first.toNat % 16 * 64 + payload second) * 64 + payload third))
                      (decodeFrom (position + 3) more)
                  else .error (fault first position 2 .continuationByte)
            else .error (fault first position 1 .continuationByte)
      else if first < 0xf5 then
        match more with
        | [] => .error (fault first position 1 .endOfData)
        | second :: more =>
            if mayFollow first second then
              match more with
              | [] => .error (fault first position 2 .endOfData)
              | third :: more =>
                  if isContinuation third then
                    match more with
                    | [] => .error (fault first position 3 .endOfData)
                    | fourth :: more =>
                        if isContinuation fourth then
                          consDecoded
                            (.ofNat
                              (((first.toNat % 8 * 64 + payload second) * 64 + payload third) * 64
                                + payload fourth))
                            (decodeFrom (position + 4) more)
                        else .error (fault first position 3 .continuationByte)
                  else .error (fault first position 2 .continuationByte)
            else .error (fault first position 1 .continuationByte)
      else .error (fault first position 1 .startByte)

def decode (bytes : List UInt8) : Except DecodeFault Text := decodeFrom 0 bytes

/-- The characters of bytes with a replacement character for each fault, of which at most so
many are replaced. -/
def decodeReplacing : Nat → List UInt8 → Text
  | 0, _ => []
  | bound + 1, bytes =>
      match decode bytes with
      | .ok text => text
      | .error fault =>
          let before := (decode (bytes.take fault.position)).toOption.getD []
          let behind := bytes.drop (fault.position + fault.count)
          before ++ ('\ufffd' : CodePoint) :: decodeReplacing bound behind

def encodeChar (c : Char) : List UInt8 :=
  let n := c.toNat
  if n < 0x80 then [UInt8.ofNat n]
  else if n < 0x800 then [UInt8.ofNat (0xc0 + n / 64), UInt8.ofNat (0x80 + n % 64)]
  else if n < 0x10000 then
    [UInt8.ofNat (0xe0 + n / 4096), UInt8.ofNat (0x80 + n / 64 % 64), UInt8.ofNat (0x80 + n % 64)]
  else
    [UInt8.ofNat (0xf0 + n / 262144), UInt8.ofNat (0x80 + n / 4096 % 64),
      UInt8.ofNat (0x80 + n / 64 % 64), UInt8.ofNat (0x80 + n % 64)]

/-- The bytes of one code point. A half stands for one byte. -/
def encodeCodePoint : CodePoint → List UInt8
  | .char c => encodeChar c
  | .half index => [UInt8.ofNat index]

def encode (text : Text) : List UInt8 := text.flatMap encodeCodePoint

/-- Whether a half of a character stands in a name for a byte that is part of no character. -/
def standsForByte (c : CodePoint) : Bool := 0xdc80 ≤ c.toNat && c.toNat < 0xdd00

/-- The first halves of characters in a text that do not pass, from a position on. All halves
that follow in a row share the fault. -/
def firstHalves? (passes : CodePoint → Bool) : Nat → Text → Option EncodeFault
  | _, [] => none
  | position, c :: text =>
      if c.isHalf && !passes c then
        some ⟨"utf-8", .halves, c, position, (text.takeWhile CodePoint.isHalf).length + 1⟩
      else firstHalves? passes (position + 1) text

/-- The bytes of a text in a file. Halves of characters are refused there. -/
def encodeWhole (text : Text) : Except EncodeFault (List UInt8) :=
  match firstHalves? (fun _ => false) 0 text with
  | some fault => .error fault
  | none => .ok (encode text)

/-- Why a name has no bytes: it holds halves of characters that do not stand for bytes. -/
def nameFault? (name : Text) : Option EncodeFault := firstHalves? standsForByte 0 name

/-- A name as it is shown: a byte that is part of no character is replaced. -/
def shownName (name : Text) : Text :=
  let bytes := encode name
  decodeReplacing (bytes.length + 1) bytes

/-- The three bytes that may stand in front of a text to mark its encoding. -/
def mark : List UInt8 := [0xef, 0xbb, 0xbf]

/-- The characters of a file that may start with the mark. Positions count from behind it,
and a file that ends within the mark is empty. -/
def decodeMarked (bytes : List UInt8) : Except DecodeFault Text :=
  if bytes.length < mark.length && bytes.isPrefixOf mark then .ok []
  else if mark.isPrefixOf bytes then decode (bytes.drop mark.length)
  else decode bytes

end Inlay.Utf8
