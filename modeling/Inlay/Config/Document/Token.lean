import Inlay.Config.Document.Fault

/-!
# Tokens

The tokens of a configuration document. Besides what is written they tell where blocks begin
and end, which only the layout shows.
-/

set_option autoImplicit false

namespace Inlay.Document

/-- An instruction in front of a document: the version of the format, a shorthand for the tags
that begin in one way, or anything else, which has no effect. -/
inductive Directive where
  | version (major minor : Nat)
  | shorthand (handle lead : Text)
  | other
deriving Repr, DecidableEq

/-- A token. -/
inductive Token where
  | streamEnd
  | directive (directive : Directive)
  | documentStart
  | documentEnd
  | blockSequenceStart
  | blockMappingStart
  | blockEnd
  | flowSequenceStart
  | flowSequenceEnd
  | flowMappingStart
  | flowMappingEnd
  | blockEntry
  | flowEntry
  | key
  | value
  | reference (name : Text)
  | anchor (name : Text)
  | tag (handle : Option Text) (suffix : Text)
  | scalar (text : Text) (isPlain : Bool)
deriving Repr, DecidableEq

def Token.name : Token → String
  | .streamEnd => "<stream end>"
  | .directive _ => "<directive>"
  | .documentStart => "<document start>"
  | .documentEnd => "<document end>"
  | .blockSequenceStart => "<block sequence start>"
  | .blockMappingStart => "<block mapping start>"
  | .blockEnd => "<block end>"
  | .flowSequenceStart => "["
  | .flowSequenceEnd => "]"
  | .flowMappingStart => "\x7b"
  | .flowMappingEnd => "\x7d"
  | .blockEntry => "-"
  | .flowEntry => ","
  | .key => "?"
  | .value => ":"
  | .reference _ => "<alias>"
  | .anchor _ => "<anchor>"
  | .tag _ _ => "<tag>"
  | .scalar _ _ => "<scalar>"

/-- A token with the marks at its ends. -/
structure Lexeme where
  token : Token
  start : Mark
  stop : Mark
deriving Repr, DecidableEq

/-- The tokens of a document one after another. Behind them is the end of the document, or a
fault that is met only by a reader who asks for more. -/
inductive Lexemes where
  | done (mark : Mark)
  | broken (fault : DocumentFault)
  | more (lexeme : Lexeme) (rest : Lexemes)
deriving Repr, DecidableEq

namespace Lexemes

def first : Lexemes → Except DocumentFault Lexeme
  | .done mark => .ok ⟨.streamEnd, mark, mark⟩
  | .broken fault => .error fault
  | .more lexeme _ => .ok lexeme

def rest : Lexemes → Lexemes
  | .more _ rest => rest
  | lexemes => lexemes

def size : Lexemes → Nat
  | .more _ rest => rest.size + 1
  | _ => 0

def append : List Lexeme → Lexemes → Lexemes
  | [], rest => rest
  | lexeme :: lexemes, rest => .more lexeme (append lexemes rest)

end Lexemes

end Inlay.Document
