import Inlay.Text.Scan

/-!
# References of a component

A component refers to its template by a quoted path to an HTML file, and to its stylesheets
by a list in brackets.
-/

set_option autoImplicit false

namespace Inlay

/-- A template reference: the blanks behind the keyword, and the path between the quotes. -/
structure TemplateReference where
  gap : Text
  path : Text
deriving Repr, DecidableEq

namespace TemplateReference

def keyword : Text := "templateUrl:"

theorem keyword_ne_nil : keyword ≠ [] := by decide

def ending : Text := ".html"

instance : Spelled TemplateReference where
  spelling reference := keyword ++ (reference.gap ++ ("'" ++ (reference.path ++ "'")))

/-- Whether a quoted path is that of a template: something, and then the ending. -/
def isTemplatePath (path : Text) : Bool :=
  Text.endsWith ending path && ending.length < path.length

def read? (text : Text) : Option (TemplateReference × Text) :=
  match Text.after? keyword text with
  | none => none
  | some behind =>
      match Text.trimStart behind with
      | .char '\'' :: quoted =>
          match Text.cut? '\'' quoted with
          | some (path, rest) =>
              if isTemplatePath path then some (⟨Text.leadingBlanks behind, path⟩, rest) else none
          | none => none
      | _ => none

theorem split_of_read? {text rest : Text} {reference : TemplateReference}
    (outcome : read? text = some (reference, rest)) :
    text = spelling reference ++ rest ∧ spelling reference ≠ [] := by
  unfold read? at outcome
  split at outcome
  · simp at outcome
  · next behind after =>
      split at outcome
      · next quoted trimmed =>
          split at outcome
          · next path tail cut =>
              split at outcome
              · simp only [Option.some.injEq, Prod.mk.injEq] at outcome
                obtain ⟨rfl, rfl⟩ := outcome
                refine ⟨?_, List.append_ne_nil_of_left_ne_nil keyword_ne_nil _⟩
                have lead := Text.leadingBlanks_append_trimStart behind
                rw [trimmed, (Text.cut?_eq_some_iff.mp cut).1] at lead
                rw [Text.after?_eq_some_iff.mp after, ← lead]
                simp [spelling, Text.ofString, lead]
              · simp at outcome
          · simp at outcome
      · simp at outcome

def scan : Recognizer TemplateReference where
  read? := read?
  splits outcome := (split_of_read? outcome).1
  consumes outcome := (split_of_read? outcome).2

end TemplateReference

/-- A style reference: the blanks behind the keyword, and the list with its brackets. -/
structure StyleReference where
  gap : Text
  literal : Text
deriving Repr, DecidableEq

namespace StyleReference

def keyword : Text := "styleUrls:"

theorem keyword_ne_nil : keyword ≠ [] := by decide

instance : Spelled StyleReference where
  spelling reference := keyword ++ (reference.gap ++ reference.literal)

def read? (text : Text) : Option (StyleReference × Text) :=
  match Text.after? keyword text with
  | none => none
  | some behind =>
      match Text.trimStart behind with
      | .char '[' :: inside =>
          (Text.cut? ']' inside).map fun (items, rest) =>
            (⟨Text.leadingBlanks behind, "[" ++ items ++ "]"⟩, rest)
      | _ => none

theorem split_of_read? {text rest : Text} {reference : StyleReference}
    (outcome : read? text = some (reference, rest)) :
    text = spelling reference ++ rest ∧ spelling reference ≠ [] := by
  unfold read? at outcome
  split at outcome
  · simp at outcome
  · next behind after =>
      split at outcome
      · next inside trimmed =>
          simp only [Option.map_eq_some_iff, Prod.exists, Prod.mk.injEq] at outcome
          obtain ⟨items, tail, cut, rfl, rfl⟩ := outcome
          refine ⟨?_, List.append_ne_nil_of_left_ne_nil keyword_ne_nil _⟩
          have lead := Text.leadingBlanks_append_trimStart behind
          rw [trimmed, (Text.cut?_eq_some_iff.mp cut).1] at lead
          rw [Text.after?_eq_some_iff.mp after, ← lead]
          simp [spelling, Text.ofString, lead]
      · simp at outcome

def scan : Recognizer StyleReference where
  read? := read?
  splits outcome := (split_of_read? outcome).1
  consumes outcome := (split_of_read? outcome).2

end StyleReference

end Inlay
