import Inlay.Config.Value
import Inlay.Encoding.Utf8
import Inlay.Text.Scan

/-!
# Environment references

A text of a configuration may refer to a variable of the environment by its name between
braces, with a default behind a colon. What is put in is not looked at again. The environment
cannot be asked for a name that has no bytes.
-/

set_option autoImplicit false

namespace Inlay

abbrev Environment := List (Text × Text)

/-- A reference to a variable: what stands between its braces. -/
structure VariableReference where
  body : Text
deriving Repr, DecidableEq

namespace VariableReference

def opening : Text := "$\x7b"

instance : Spelled VariableReference where
  spelling reference := opening ++ (reference.body ++ "\x7d")

/-- Reads a reference, whose body is not empty. -/
def read? (text : Text) : Option (VariableReference × Text) :=
  match Text.after? opening text with
  | none => none
  | some behind =>
      match Text.cut? '\x7d' behind with
      | some (c :: body, rest) => some (⟨c :: body⟩, rest)
      | _ => none

def scan : Recognizer VariableReference where
  read? := read?
  splits {text rest reference} outcome := by
    unfold read? at outcome
    split at outcome
    · simp at outcome
    · next behind after =>
        split at outcome
        · next cut =>
            simp only [Option.some.injEq, Prod.mk.injEq] at outcome
            obtain ⟨rfl, rfl⟩ := outcome
            rw [Text.after?_eq_some_iff.mp after, (Text.cut?_eq_some_iff.mp cut).1]
            simp [spelling, Text.ofString]
        · simp at outcome
  consumes _ := by simp [spelling, opening]

def name (reference : VariableReference) : Text :=
  match Text.cut? ':' reference.body with
  | some (name, _) => name
  | none => reference.body

/-- What stands for a variable that is not set: the default if there is one, or else the
reference itself. -/
def fallback (reference : VariableReference) : Text :=
  match Text.cut? ':' reference.body with
  | some (_, default) => default
  | none => spelling reference

def image (environment : Environment) (reference : VariableReference) : Text :=
  (environment.lookup reference.name).getD reference.fallback

end VariableReference

/-- Why the environment cannot be asked for what a text refers to, told by the first reference
for which it cannot. -/
def referenceFault? (text : Text) : Option EncodeFault :=
  (tokensOf (VariableReference.scan.pieces text)).findSome? fun reference =>
    Utf8.nameFault? reference.name

def substituteText (environment : Environment) (text : Text) : Text :=
  VariableReference.scan.replace (VariableReference.image environment) text

mutual

/-- A value with the references in all of its texts replaced. Names of fields stay, and so do sets
and pairs. -/
def substitute (environment : Environment) : Value → Value
  | .text text => .text (substituteText environment text)
  | .list items => .list (substituteItems environment items)
  | .mapping fields => .mapping (substituteFields environment fields)
  | value => value
termination_by structural value => value

def substituteItems (environment : Environment) : List Value → List Value
  | [] => []
  | item :: items => substitute environment item :: substituteItems environment items
termination_by structural items => items

def substituteFields (environment : Environment) : List (Key × Value) → List (Key × Value)
  | [] => []
  | (name, value) :: fields =>
      (name, substitute environment value) :: substituteFields environment fields
termination_by structural fields => fields

end

/-- A value with its references replaced, unless the environment cannot be asked for one. -/
def substituteChecked (environment : Environment) (value : Value) : Except EncodeFault Value :=
  match value.texts.findSome? referenceFault? with
  | some fault => .error fault
  | none => .ok (substitute environment value)

end Inlay
