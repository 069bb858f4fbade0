import Inlay.Component.Inline
import Inlay.Proofs.Literal.Escaping

/-!
# Templates as double-quoted literals

An inlined template is read as a literal from its opening quote. Escaping never moves the parity
of the last run of backslashes, and the closing quote is written behind the body as it is. So the
literal ends with the template property unless the template itself ends in a run of backslashes
of odd length; then the closing quote is escaped, and the reading goes on behind it.
-/

set_option autoImplicit false

namespace Inlay

/-- How the reading of a double-quoted literal ends: at a quote that is not escaped, with the
text in front of it and the text behind it, at a line break, or at the end of the text. -/
inductive LiteralReading where
  | closed (body rest : Text)
  | broken
  | unclosed
deriving Repr, DecidableEq

def LiteralReading.behind (front : Text) : LiteralReading → LiteralReading
  | .closed body rest => .closed (front ++ body) rest
  | .broken => .broken
  | .unclosed => .unclosed

/-- Reads a literal on from a character, given whether this character is escaped. A line break
is met even if it is escaped. -/
def readLiteralFrom : Bool → Text → LiteralReading
  | _, [] => .unclosed
  | escaped, c :: text =>
      if c = .char '"' && !escaped then .closed [] text
      else if isLineBreak c then .broken
      else (readLiteralFrom (c = .char '\\' && !escaped) text).behind [c]

/-- Reads a literal whose opening quote stands in front of the text. -/
def readLiteral (text : Text) : LiteralReading := readLiteralFrom false text

theorem LiteralReading.behind_nil (reading : LiteralReading) : reading.behind [] = reading := by
  cases reading <;> rfl

theorem LiteralReading.behind_behind (front more : Text) (reading : LiteralReading) :
    (reading.behind more).behind front = reading.behind (front ++ more) := by
  cases reading with
  | closed body rest => simp [behind]
  | broken => rfl
  | unclosed => rfl

theorem readLiteralFrom_escaped_quote (rest : Text) :
    readLiteralFrom true (.char '"' :: rest) = (readLiteral rest).behind [.char '"'] := rfl

theorem readLiteralFrom_bare_quote (rest : Text) :
    readLiteralFrom false (.char '"' :: rest) = .closed [] rest := rfl

theorem readLiteralFrom_append {escaped : Bool} {text : Text} (quotes : QuotesEscaped escaped text)
    (plain : ∀ c ∈ text, isLineBreak c = false) (rest : Text) :
    readLiteralFrom escaped (text ++ rest) =
      (readLiteralFrom (endsEscaped escaped text) rest).behind text := by
  induction text generalizing escaped with
  | nil => exact (LiteralReading.behind_nil _).symm
  | cons c text ih =>
      obtain ⟨first, later⟩ := quotesEscaped_cons_iff.mp quotes
      have covered : ¬ (decide (c = .char '"') && !escaped) = true := by
        simpa using first
      have unbroken : ¬ isLineBreak c = true := by
        simp [plain c (.head text)]
      have inside := ih later fun d member => plain d (.tail c member)
      calc readLiteralFrom escaped (c :: (text ++ rest))
          = (readLiteralFrom (escapesNext escaped c) (text ++ rest)).behind [c] := by
            rw [readLiteralFrom, if_neg covered, if_neg unbroken]
            rfl
        _ = (readLiteralFrom (endsEscaped escaped (c :: text)) rest).behind (c :: text) := by
            rw [inside, LiteralReading.behind_behind]
            rfl

/-!
## The last run of backslashes
-/

theorem endsEscaped_escapeFrom (escaped : Bool) (text : Text) :
    endsEscaped escaped (escapeFrom escaped text) = endsEscaped escaped text := by
  induction text generalizing escaped with
  | nil => rfl
  | cons c text ih =>
      unfold escapeFrom
      split
      · next backslash =>
          subst backslash
          exact ih _
      · next other =>
          have clear : escapesNext escaped c = false := escapesNext_of_ne other escaped
          rw [endsEscaped_cons, clear]
          split
          · next bare =>
              simp only [Bool.and_eq_true, decide_eq_true_eq, Bool.not_eq_true'] at bare
              obtain ⟨rfl, rfl⟩ := bare
              exact ih false
          · rw [endsEscaped_cons, clear]
            exact ih false

/-- No blank is a backslash, so what is left out behind a line break escapes nothing. -/
theorem endsEscaped_collapseFrom {inBreak escaped : Bool} (text : Text)
    (clear : inBreak = true → escaped = false) :
    endsEscaped escaped (collapseFrom inBreak text) = endsEscaped escaped text := by
  induction text generalizing inBreak escaped with
  | nil => rfl
  | cons c text ih =>
      have plain (blank : isBlank c = true) : escapesNext escaped c = false := by
        refine escapesNext_of_ne ?_ escaped
        rintro rfl
        exact absurd blank (by decide)
      unfold collapseFrom
      split
      · next breaks =>
          rw [endsEscaped_cons, plain (isBlank_of_isLineBreak breaks)]
          split
          · next continues =>
              rw [clear continues]
              exact ih fun _ => rfl
          · have space : escapesNext escaped (.char ' ') = false :=
              escapesNext_of_ne (by decide) escaped
            rw [endsEscaped_cons, space]
            exact ih fun _ => rfl
      · split
        · next skipped =>
            simp only [Bool.and_eq_true] at skipped
            rw [endsEscaped_cons, plain skipped.2, clear skipped.1]
            exact ih fun _ => rfl
        · exact ih fun continues => absurd continues Bool.false_ne_true

theorem endsEscaped_literalBody (text : Text) :
    endsEscaped false (literalBody text) = endsEscaped false text := by
  unfold literalBody escapeQuotes collapseBreaks
  rw [endsEscaped_escapeFrom, endsEscaped_collapseFrom text fun _ => rfl]

/-!
## Template properties
-/

namespace Component

/-- What stands in front of the literal of an inlined template, its opening quote included. -/
def templateOpening : Text := "template: \""

theorem templateProperty_append (content rest : Text) :
    templateProperty content ++ rest =
      templateOpening ++ (literalBody content ++ .char '"' :: rest) := by
  simp [templateProperty, templateOpening, Text.ofString]

/-- No line break is met in an inlined template. The first quote that is not escaped is the
closing one exactly if the template does not end in a run of backslashes of odd length. In that
case the closing quote belongs to the literal, which goes on in the text behind. -/
theorem read_templateProperty (content rest : Text) :
    (Text.after? templateOpening (templateProperty content ++ rest)).map readLiteral =
      some (if Odd (trailingBackslashes content) then
        (readLiteral rest).behind (literalBody content ++ [.char '"'])
      else .closed (literalBody content) rest) := by
  have opened := Text.after?_eq_some_iff.mpr (templateProperty_append content rest)
  have form := isLiteralBody_literalBody content
  have overBody := readLiteralFrom_append form.quotesEscaped form.no_break (.char '"' :: rest)
  rw [endsEscaped_literalBody] at overBody
  rw [opened, Option.map_some, readLiteral, overBody]
  by_cases odd : Odd (trailingBackslashes content)
  · rw [if_pos odd, endsEscaped_iff.mpr odd, readLiteralFrom_escaped_quote,
      LiteralReading.behind_behind]
  · have even : endsEscaped false content = false :=
      Bool.eq_false_iff.mpr fun ends => odd (endsEscaped_iff.mp ends)
    rw [if_neg odd, even, readLiteralFrom_bare_quote]
    simp [LiteralReading.behind]

def backslashProject : FileSystem where
  entries := [(["a.html"], .file (Utf8.encode "\\"))]
  workingDirectory := []

/-- The literal of a template that ends in a backslash is not closed. -/
theorem inlined_template_may_stay_open :
    (inlineTemplates (resolveFrom (Path.ofText "a.ts")) .utf8 "templateUrl: 'a.html'").result
        backslashProject = .ok (templateProperty "\\") ∧
      (Text.after? templateOpening (templateProperty "\\")).map readLiteral = some .unclosed := by
  constructor
  · decide +kernel
  · decide +kernel

end Component

end Inlay
