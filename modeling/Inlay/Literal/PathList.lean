import Inlay.Text.Basic

/-!
# Path lists

The array literal of a style declaration: single-quoted paths between brackets, separated by
commas, with blanks between any two tokens and an optional comma behind the last path.
-/

set_option autoImplicit false

namespace Inlay.PathList

/-- A character that may stand in a quoted path. -/
def isPathChar (c : CodePoint) : Bool := !(c == '\'' || c == '\\' || isLineBreak c)

/-- Reads one quoted path, which is never empty. -/
def path? : Text → Option (Text × Text)
  | .char '\'' :: text =>
      match text.takeWhile isPathChar, text.dropWhile isPathChar with
      | c :: path, .char '\'' :: rest => some (c :: path, rest)
      | _, _ => none
  | _ => none

theorem length_of_path? {text path rest : Text} (outcome : path? text = some (path, rest)) :
    rest.length < text.length := by
  unfold path? at outcome
  split at outcome
  · next body =>
      split at outcome
      · next taken dropped =>
          simp only [Option.some.injEq, Prod.mk.injEq] at outcome
          have bound := (List.dropWhile_sublist (l := body) isPathChar).length_le
          rw [dropped, outcome.2] at bound
          simp only [List.length_cons] at bound ⊢
          omega
      · simp at outcome
  · simp at outcome

theorem length_trimStart_le (text : Text) : (Text.trimStart text).length ≤ text.length :=
  (List.dropWhile_sublist (l := text) isBlank).length_le

/-- Reads paths up to the closing bracket, from a place where a path or the bracket may
stand. A failure carries the text at which it occurs. -/
def entries (text : Text) : Except Text (List Text × Text) :=
  match Text.after? [']'] text with
  | some rest => .ok ([], rest)
  | none =>
      match _read : path? text with
      | none => .error text
      | some (path, behind) =>
          match _separated : Text.trimStart behind with
          | .char ']' :: rest => .ok ([path], rest)
          | .char ',' :: next =>
              match entries (Text.trimStart next) with
              | .error unread => .error unread
              | .ok (paths, rest) => .ok (path :: paths, rest)
          | _ => .error (Text.trimStart behind)
termination_by text.length
decreasing_by
  have shorter := length_of_path? _read
  have behindBound := length_trimStart_le behind
  have nextBound := length_trimStart_le next
  rw [_separated, List.length_cons] at behindBound
  omega

/-- Reads a whole path list. A failure carries the text at which it occurs. -/
def parse (literal : Text) : Except Text (List Text) :=
  match Text.trimStart literal with
  | .char '[' :: inside =>
      match entries (Text.trimStart inside) with
      | .error unread => .error unread
      | .ok (paths, behind) =>
          match Text.trimStart behind with
          | [] => .ok paths
          | unread => .error unread
  | unread => .error unread

def offsetOf (literal unread : Text) : Nat := literal.length - unread.length

end Inlay.PathList
