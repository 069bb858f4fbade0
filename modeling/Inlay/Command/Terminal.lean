import Inlay.Text.Quoted
import Inlay.Text.Scan

/-!
# Printed text

What is printed holds no control sequences of a terminal: they are taken out of every message.
-/

set_option autoImplicit false

namespace Inlay.Command

/-- A control sequence: its parameters, what modifies it, and the character that tells what it
does. -/
structure ControlSequence where
  parameters : Text
  modifiers : Text
  function : CodePoint
deriving Repr, DecidableEq

namespace ControlSequence

def opening : Text := ['\x1b', '[']

/-- A character of the parameters: a digit, a separator, or a mark of private ones. -/
def isParameter (c : CodePoint) : Bool := '0' ≤ c && c ≤ '?'

def isModifier (c : CodePoint) : Bool := ' ' ≤ c && c ≤ '/'

def isFunction (c : CodePoint) : Bool := '@' ≤ c && c ≤ '~'

instance : Spelled ControlSequence where
  spelling sequence :=
    opening ++ (sequence.parameters ++ (sequence.modifiers ++ [sequence.function]))

def read? (text : Text) : Option (ControlSequence × Text) :=
  match Text.after? opening text with
  | none => none
  | some behind =>
      let parameters := behind.takeWhile isParameter
      let modified := behind.dropWhile isParameter
      match modified.dropWhile isModifier with
      | function :: rest =>
          if isFunction function then
            some (⟨parameters, modified.takeWhile isModifier, function⟩, rest)
          else none
      | [] => none

def scan : Recognizer ControlSequence where
  read? := read?
  splits {text rest sequence} outcome := by
    unfold read? at outcome
    split at outcome
    · simp at outcome
    · next behind after =>
        dsimp only at outcome
        split at outcome
        · next function tail dropped =>
            split at outcome
            · simp only [Option.some.injEq, Prod.mk.injEq] at outcome
              obtain ⟨rfl, rfl⟩ := outcome
              have modified := List.takeWhile_append_dropWhile (p := isModifier)
                (l := behind.dropWhile isParameter)
              have whole := List.takeWhile_append_dropWhile (p := isParameter) (l := behind)
              rw [dropped] at modified
              rw [← modified] at whole
              rw [Text.after?_eq_some_iff.mp after]
              simp only [spelling, List.append_assoc, List.singleton_append]
              rw [whole]
            · simp at outcome
        · simp at outcome
  consumes _ := by simp [spelling, opening]

end ControlSequence

/-- A code point as it is printed: a half of a character is written as its code. -/
def printedCodePoint (c : CodePoint) : Text := if c.isHalf then escapeByCode c else [c]

def printed (text : Text) : Text :=
  (ControlSequence.scan.replace (fun _ => []) text).flatMap printedCodePoint

end Inlay.Command
