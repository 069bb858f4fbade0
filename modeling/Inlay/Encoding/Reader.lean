import Inlay.Encoding.Basic
import Inlay.Number.Binary64

/-!
# Reading a file little by little

A text file that is read from front to back, some characters at a time. Its bytes are taken in
pieces, and a piece is decoded when it is taken. So a fault in the file is met only by a reader
who asks for characters of its piece, or for characters behind it.
-/

set_option autoImplicit false

namespace Inlay

/-- How far a file was read: the bytes that were not taken yet, those that begin a character
at the end of the last piece, whether a carriage return at its end waits for the line feed that
may follow, the characters that nobody asked for yet, and how many bytes a character of the
last piece took. -/
structure TextReader where
  rest : List UInt8
  unfinished : List UInt8 := []
  holdsReturn : Bool := false
  ready : Text := []
  width : Binary64 := .zero
deriving Repr, DecidableEq

namespace TextReader

/-- The smallest piece that is taken, in bytes. -/
def smallestPiece : Nat := 8192

/-- The bytes that are taken when so many more characters are wanted: as many as these have if
they are like the ones of the last piece, and never fewer than the smallest piece. -/
def pieceSize (wanted : Nat) (reader : TextReader) : Nat :=
  max smallestPiece (reader.width.scale wanted).truncate.toNat

def isSpent (reader : TextReader) : Bool :=
  reader.rest.isEmpty && reader.unfinished.isEmpty && !reader.holdsReturn

/-- Takes one piece. Behind the last byte a character that is not finished is a fault. -/
def takePiece (wanted : Nat) (reader : TextReader) : Except DecodeFault TextReader :=
  let piece := reader.rest.take (reader.pieceSize wanted)
  let isLast := piece.isEmpty
  let bytes := reader.unfinished ++ piece
  let finished :=
    match Utf8.decode bytes with
    | .error ⟨_, _, position, _, .endOfData⟩ => if isLast then bytes.length else position
    | _ => bytes.length
  match Utf8.decode (bytes.take finished) with
  | .error fault => .error fault
  | .ok decoded =>
      let text : Text := if reader.holdsReturn then '\r' :: decoded else decoded
      let holdsReturn := !isLast && text.getLast? == some '\r'
      let added := unifyLineBreaks (if holdsReturn then text.dropLast else text)
      .ok {
        rest := reader.rest.drop piece.length
        unfinished := bytes.drop finished
        holdsReturn
        ready := reader.ready ++ added
        width := if added.isEmpty then .zero else .ofFraction piece.length added.length }

/-- Takes pieces until so many characters are ready or the file is spent. At most so many
pieces are taken. -/
def takePieces (count : Nat) : Nat → TextReader → Except DecodeFault TextReader
  | 0, reader => .ok reader
  | bound + 1, reader =>
      if reader.isSpent || count ≤ reader.ready.length then .ok reader
      else
        match reader.takePiece (count - reader.ready.length) with
        | .error fault => .error fault
        | .ok reader => takePieces count bound reader

/-- The next characters, so many if there are, and the reader behind them. -/
def read (count : Nat) (reader : TextReader) : Except DecodeFault (Text × TextReader) :=
  (reader.takePieces count (reader.rest.length + 2)).map fun reader =>
    (reader.ready.take count, { reader with ready := reader.ready.drop count })

/-- All characters, so many at a time, up to the end or to a fault. There are at most so many
portions. -/
def portions (count : Nat) : Nat → TextReader → List Text × Option DecodeFault
  | 0, _ => ([], none)
  | bound + 1, reader =>
      match reader.read count with
      | .error fault => ([], some fault)
      | .ok ([], _) => ([], none)
      | .ok (portion, reader) =>
          let (behind, fault) := portions count bound reader
          (portion :: behind, fault)

end TextReader

/-- The characters of a file, so many at a time, with every line break as a line feed. Those
that are asked for together with a fault are lost with it. -/
def portionsOfFile (count : Nat) (bytes : List UInt8) : List Text × Option DecodeFault :=
  TextReader.portions count (bytes.length + 1) { rest := bytes }

end Inlay
