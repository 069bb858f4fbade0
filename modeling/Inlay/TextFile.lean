import Inlay.Inquiry

/-!
# Text files

Reading a file as text: its bytes in an encoding. A name that no encoding has is noticed only once
the file was there to be opened, but a name that cannot be passed on is refused before.
-/

set_option autoImplicit false

namespace Inlay

namespace Charset

def decode (charset : Charset) (bytes : Bytes) : Except Fault Text :=
  match charset.codec with
  | .error refusal => .error (.unusableEncoding refusal charset.name)
  | .ok codec => (codec.decode bytes).mapError .decoding

def encode (charset : Charset) (text : Text) : Except Fault Bytes :=
  match charset.codec with
  | .error refusal => .error (.unusableEncoding refusal charset.name)
  | .ok codec => (codec.encode text).mapError .encoding

end Charset

namespace Inquiry

/-- Refuses the name of an encoding that holds halves of characters or a null character. -/
def checkEncodingName (name : Text) : Inquiry Unit :=
  match Utf8.firstHalves? (fun _ => false) 0 name with
  | some fault => .fail (.encoding (.chars fault))
  | none => if name.contains '\x00' then .fail (.unreadableEncoding name) else .done ()

/-- The text of a file, with its line breaks as they are. -/
def readExact (charset : Charset) (path : Path) : Inquiry Text := do
  checkEncodingName charset.name
  .read path fun
    | .ok bytes => ofExcept (charset.decode bytes)
    | .error fault => .fail (.access fault path.text)

/-- The text of a file, with every line break as a line feed. -/
def readUnified (charset : Charset) (path : Path) : Inquiry Text := do
  let text ← readExact charset path
  return unifyLineBreaks text

/-- The text of a file that a source refers to, with every line break as a line feed. A file
that is not there is reported as a missing resource. -/
def readResource (charset : Charset) (path : Path) : Inquiry Text := do
  checkEncodingName charset.name
  .read path fun
    | .ok bytes => do
        let text ← ofExcept (charset.decode bytes)
        return unifyLineBreaks text
    | .error .notFound => .fail (.resourceNotFound path.text none)
    | .error fault => .fail (.access fault path.text)

end Inquiry

end Inlay
