import Inlay.Config.Value
import Inlay.Encoding.Codec
import Inlay.Files.Basic
import Inlay.Number.Integer

/-!
# Faults

Everything that can stop a run, by cause, and its wording.
-/

set_option autoImplicit false

namespace Inlay

/-- Why a stylesheet could not be compiled. -/
inductive CompileCause where
  | unresolvedImport (reference : Text)
  | importsTooDeep
  | unexpectedBrace (line : Nat)
  | unclosedBraces (count : Nat)
  | compiler (message : Text)
deriving Repr, DecidableEq

/-- Why a pattern for files is not usable. -/
inductive PatternCause where
  | empty
  | anchored
  | joinedStars
  | withoutParts
  | onlySlash
  | tooManyParts
deriving Repr, DecidableEq

/-- What a library of the machine refuses with: the kind of its fault, and its wording. -/
structure Refusal where
  kind : String
  message : Text
deriving Repr, DecidableEq

/-- Why a configuration is not usable. -/
inductive ConfigCause where
  | missingFile (path : Text)
  | notMapping (path : Text)
  | document (refusal : Refusal)
  | withoutFields (kind : String)
  | withoutItems (kind : String)
  | notNumeric (kind : String)
  | numeral (fault : NumeralFault)
  | infiniteInteger
  | undefinedInteger
  | negativeConcurrency
  | negativeSlots
  | notPath (kind : String)
  | bytesPath
  | sink (refusal : Refusal)
deriving Repr, DecidableEq

/-- What stopped a run. -/
inductive Fault where
  | resourceNotFound (path : Text) (referrer : Option Text)
  | stylesheet (file : Text) (cause : CompileCause)
  | malformedPathList (literal : Text) (offset : Int)
  | access (cause : AccessFault) (path : Text)
  | decoding (failure : DecodingFailure)
  | encoding (failure : EncodingFailure)
  | unusableEncoding (refusal : CodecRefusal) (name : Text)
  | unreadableEncoding (name : Text)
  | namelessPath (path : Path)
  | pattern (cause : PatternCause) (text : Text)
  | searchTooDeep (path : Text)
  | config (cause : ConfigCause)
  | projectNotFound (path : Text)
deriving Repr, DecidableEq

/-- The values of a list of outcomes, or its first fault. -/
def allOf {α : Type} : List (Except Fault α) → Except Fault (List α)
  | [] => .ok []
  | .error fault :: _ => .error fault
  | .ok value :: outcomes =>
      match allOf outcomes with
      | .ok values => .ok (value :: values)
      | .error fault => .error fault

def CompileCause.message : CompileCause → Text
  | .unresolvedImport reference => "cannot resolve import '" ++ reference ++ "'"
  | .importsTooDeep => "imports nested too deeply"
  | .unexpectedBrace line => s!"unexpected '\x7d' on line {line}"
  | .unclosedBraces count => s!"{count} unclosed '\x7b' at end of input"
  | .compiler message => message

def AccessFault.message (path : Text) (fault : AccessFault) : Text :=
  let shown := quoted path
  match fault with
  | .notFound => "[Errno 2] No such file or directory: " ++ shown
  | .alreadyExists => "[Errno 17] File exists: " ++ shown
  | .notDirectory => "[Errno 20] Not a directory: " ++ shown
  | .isDirectory => "[Errno 21] Is a directory: " ++ shown
  | .nameTooLong => "[Errno 36] File name too long: " ++ shown
  | .nullCharacter => "embedded null byte"
  | .encoding fault => fault.message

def DecodingFailure.message : DecodingFailure → Text
  | .bytes fault => fault.message
  | .byteOrderUnknown => "UTF-16 stream does not start with BOM"
  | .described message => message

def EncodingFailure.message : EncodingFailure → Text
  | .chars fault => fault.message
  | .described message => message

def CodecRefusal.message (name : Text) : CodecRefusal → Text
  | .unknown => "unknown encoding: " ++ name
  | .notText =>
      "'" ++ name ++ "' is not a text encoding; use codecs.open() to handle arbitrary codecs"

def tooDeepMessage : Text := "maximum recursion depth exceeded"

def PatternCause.message (text : Text) : PatternCause → Text
  | .empty => "Unacceptable pattern: " ++ quoted text
  | .anchored => "Non-relative patterns are unsupported"
  | .joinedStars => "Invalid pattern: '**' can only be an entire path component"
  | .withoutParts => "tuple index out of range"
  | .onlySlash => "a pattern needs a name in front of its slash"
  | .tooManyParts => tooDeepMessage

def ConfigCause.message : ConfigCause → Text
  | .missingFile path => "Configuration file not found: " ++ path
  | .notMapping path => "Configuration file must contain a mapping: " ++ path
  | .document refusal => refusal.message
  | .withoutFields kind => s!"'{kind}' object has no attribute 'get'"
  | .withoutItems kind => s!"a value of kind '{kind}' holds no items"
  | .notNumeric kind => s!"a value of kind '{kind}' is no number"
  | .numeral fault => fault.message
  | .infiniteInteger => "an infinite number has no integer"
  | .undefinedInteger => "cannot convert float NaN to integer"
  | .negativeConcurrency => "inline.max_concurrency must be zero or a positive integer"
  | .negativeSlots => "Semaphore initial value must be >= 0"
  | .notPath kind => s!"expected str, bytes or os.PathLike object, not {kind}"
  | .bytesPath =>
      "argument should be a str object or an os.PathLike object returning str, not <class 'bytes'>"
  | .sink refusal => refusal.message

def shownListLength : Nat := 20

def Fault.message : Fault → Text
  | .resourceNotFound path none => "Resource not found: " ++ path
  | .resourceNotFound path (some referrer) =>
      "Resource not found: " ++ path ++ " (referenced from " ++ referrer ++ ")"
  | .stylesheet file cause =>
      "Failed to compile stylesheet " ++ file ++ ": " ++ cause.message
  | .malformedPathList literal offset =>
      s!"Malformed styleUrls literal at offset {offset}: " ++
        quoted (Text.slice offset (offset + shownListLength) literal)
  | .access cause path => cause.message path
  | .decoding failure => failure.message
  | .encoding failure => failure.message
  | .unusableEncoding refusal name => refusal.message name
  | .unreadableEncoding _ => "embedded null character"
  | .namelessPath path => "PosixPath(" ++ quoted path.text ++ ") has an empty name"
  | .pattern cause text => cause.message text
  | .searchTooDeep _ => tooDeepMessage
  | .config cause => cause.message
  | .projectNotFound path => "Project directory not found: " ++ path

end Inlay
