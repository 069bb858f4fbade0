import Inlay.Encoding.Basic

/-!
# Codecs

What a machine knows under the name of an encoding: how bytes are read as characters, and how
characters are written as bytes. All codecs are taken as they are. That no bytes hold no characters
is the one thing that is relied on.
-/

set_option autoImplicit false

namespace Inlay

section

variable {α ε δ : Type} (told : ε → δ)

@[simp]
theorem mapError_ok (value : α) : (Except.ok value : Except ε α).mapError told = .ok value := rfl

@[simp]
theorem mapError_error (fault : ε) :
    (Except.error fault : Except ε α).mapError told = .error (told fault) := rfl

end

/-- Why characters could not be encoded: some of them have no code, or what an encoding has its own
words for. -/
inductive EncodingFailure where
  | chars (fault : EncodeFault)
  | described (message : Text)
deriving Repr, DecidableEq

/-- The two directions of an encoding. -/
structure Codec where
  decode : List UInt8 → Except DecodingFailure Text
  encode : Text → Except EncodingFailure (List UInt8)
  decode_nil : ∀ {text : Text}, decode [] = .ok text → text = []

/-- Why a name stands for no codec: nobody knows it, or it is not that of an encoding of texts. -/
inductive CodecRefusal where
  | unknown
  | notText
deriving Repr, DecidableEq

/-- An encoding as a run asks for it: by its name, with what the machine knows under that name. -/
structure Charset where
  name : Text
  codec : Except CodecRefusal Codec

theorem Encoding.decode_nil {encoding : Encoding} {text : Text}
    (decoded : encoding.decode [] = .ok text) : text = [] := by
  cases encoding <;> cases decoded <;> rfl

def Encoding.codec (encoding : Encoding) : Codec where
  decode := encoding.decode
  encode text := (encoding.encode text).mapError .chars
  decode_nil := decode_nil

namespace Codec

/-- The common encodings by their names. -/
def common (name : Text) : Except CodecRefusal Codec :=
  match Encoding.ofName? name with
  | some encoding => .ok encoding.codec
  | none => .error .unknown

end Codec

namespace Charset

def utf8 : Charset := ⟨"utf-8", .ok Encoding.utf8.codec⟩

end Charset

end Inlay
