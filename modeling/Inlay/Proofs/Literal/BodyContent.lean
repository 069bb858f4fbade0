import Inlay.Proofs.Literal.Escaping
import Mathlib.Data.List.Infix
import Mathlib.Data.List.TakeWhile

/-!
# What a literal body keeps

Collapsing the line breaks of a text leaves out blanks and puts in spaces, and escaping its quotes
puts in backslashes. To read a body with its escapes undone is to read the collapsed text that way,
so that without backslashes in the text the collapsed text comes back.
-/

set_option autoImplicit false

namespace Inlay

open Text (StartsUnblank startsUnblank_trimStart)

/-!
## Collapsed texts
-/

/-- A text and its line: each line break, together with all the blanks behind it, is one space on
the line, and all else is the same. -/
inductive Collapses : Text → Text → Prop where
  | done : Collapses [] []
  | kept {c : CodePoint} {text line : Text} :
      isLineBreak c = false → Collapses text line → Collapses (c :: text) (c :: line)
  | broken {c : CodePoint} {blanks text line : Text} :
      isLineBreak c = true → (∀ d ∈ blanks, isBlank d = true) → StartsUnblank text →
      Collapses text line → Collapses (c :: (blanks ++ text)) (.char ' ' :: line)

theorem isLineBreak_of_not_isBlank {c : CodePoint} (unblank : isBlank c = false) :
    isLineBreak c = false :=
  Bool.eq_false_iff.mpr fun breaks =>
    Bool.eq_false_iff.mp unblank (isBlank_of_isLineBreak breaks)

theorem collapseFrom_blanks {blanks : Text} (blank : ∀ c ∈ blanks, isBlank c = true)
    (text : Text) : collapseFrom true (blanks ++ text) = collapseFrom true text := by
  induction blanks with
  | nil => rfl
  | cons c blanks ih =>
      have later := ih fun d member => blank d (.tail c member)
      simp [collapseFrom, blank c (.head blanks), later]

theorem collapseFrom_of_startsUnblank {text : Text} (starts : StartsUnblank text) :
    collapseFrom true text = collapseFrom false text := by
  cases text with
  | nil => rfl
  | cons c text =>
      have unblank : isBlank c = false := starts c rfl
      simp [collapseFrom, isLineBreak_of_not_isBlank unblank, unblank]

theorem Collapses.eq_collapseBreaks {text line : Text} (collapses : Collapses text line) :
    line = collapseBreaks text := by
  unfold collapseBreaks
  induction collapses with
  | done => rfl
  | kept plain _ ih => simp [collapseFrom, plain, ← ih]
  | broken breaks blank starts _ ih =>
      simp [collapseFrom, breaks, collapseFrom_blanks blank, collapseFrom_of_startsUnblank starts,
        ← ih]

/-- A line break takes the blanks behind it away, so along with a text the text behind its first
blanks is followed. -/
theorem collapses_collapseFrom (text : Text) :
    Collapses text (collapseFrom false text) ∧
      Collapses (Text.trimStart text) (collapseFrom true text) := by
  induction text with
  | nil => exact ⟨.done, .done⟩
  | cons c text ih =>
      obtain ⟨whole, trimmed⟩ := ih
      cases breaks : isLineBreak c with
      | true =>
          have blank := isBlank_of_isLineBreak breaks
          have blanks : ∀ d ∈ Text.leadingBlanks text, isBlank d = true :=
            fun d member => List.mem_takeWhile_imp member
          have broken := Collapses.broken breaks blanks (startsUnblank_trimStart text) trimmed
          rw [Text.leadingBlanks_append_trimStart] at broken
          constructor
          · simpa [collapseFrom, breaks] using broken
          · simpa [collapseFrom, breaks, Text.trimStart, blank] using trimmed
      | false =>
          have kept := Collapses.kept breaks whole
          cases blank : isBlank c with
          | true =>
              constructor
              · simpa [collapseFrom, breaks] using kept
              · simpa [collapseFrom, breaks, Text.trimStart, blank] using trimmed
          | false =>
              constructor
              · simpa [collapseFrom, breaks] using kept
              · simpa [collapseFrom, breaks, Text.trimStart, blank] using kept

theorem collapses_iff {text line : Text} : Collapses text line ↔ line = collapseBreaks text := by
  constructor
  · intro collapses
    exact collapses.eq_collapseBreaks
  · rintro rfl
    exact (collapses_collapseFrom text).1

/-!
## Escaped quotes by their places
-/

/-- How a character is written behind a text: a double quote behind a run of backslashes of even
length gets a backslash. -/
def writtenBehind (before : Text) (c : CodePoint) : Text :=
  if c = .char '"' ∧ Even (trailingBackslashes before) then [.char '\\', c] else [c]

theorem even_trailingBackslashes_iff {text : Text} :
    Even (trailingBackslashes text) ↔ endsEscaped false text = false := by
  rw [← Nat.not_odd_iff_even, ← endsEscaped_iff, Bool.not_eq_true]

theorem writtenBehind_cases (before : Text) (c : CodePoint) :
    (c = .char '"' ∧ endsEscaped false before = false ∧
        writtenBehind before c = [.char '\\', c]) ∨
      ((c = .char '"' → endsEscaped false before = true) ∧ writtenBehind before c = [c]) := by
  by_cases bare : c = .char '"' ∧ Even (trailingBackslashes before)
  · exact .inl ⟨bare.1, even_trailingBackslashes_iff.mp bare.2, if_pos bare⟩
  · refine .inr ⟨fun quote => ?_, if_neg bare⟩
    have odd : ¬ endsEscaped false before = false :=
      fun even => bare ⟨quote, even_trailingBackslashes_iff.mpr even⟩
    simpa using odd

theorem escapeFrom_cons (before : Text) (c : CodePoint) (text : Text) :
    escapeFrom (endsEscaped false before) (c :: text) =
      writtenBehind before c ++ escapeFrom (endsEscaped false (before ++ [c])) text := by
  have flag : endsEscaped false (before ++ [c]) = escapesNext (endsEscaped false before) c :=
    List.foldl_append
  rcases writtenBehind_cases before c with ⟨rfl, bare, written⟩ | ⟨covered, written⟩
  · rw [flag, written, bare]
    rfl
  · rw [flag, written, escapeFrom]
    split
    · next backslash =>
        subst backslash
        rfl
    · next other =>
        have guarded : ¬ (decide (c = .char '"') && !endsEscaped false before) = true := by
          simpa using covered
        rw [if_neg guarded, escapesNext_of_ne other]
        rfl

theorem escapeFrom_endsEscaped (before text : Text) :
    escapeFrom (endsEscaped false before) text =
      (List.zipWith (fun front => writtenBehind (before ++ front)) text.inits text).flatten := by
  induction text generalizing before with
  | nil => rfl
  | cons c text ih =>
      rw [escapeFrom_cons, ih, List.inits_cons, List.zipWith_cons_cons, List.flatten_cons,
        List.zipWith_map_left, List.append_nil]
      simp only [List.append_assoc, List.cons_append, List.nil_append]

theorem escapeQuotes_eq (text : Text) :
    escapeQuotes text = (List.zipWith writtenBehind text.inits text).flatten :=
  escapeFrom_endsEscaped [] text

/-!
## Content
-/

/-- What neither the collapsing nor the escaping of a text changes. -/
def isContent (c : CodePoint) : Bool := !isBlank c && c != .char '\\'

theorem content_collapseFrom (inBreak : Bool) (text : Text) :
    (collapseFrom inBreak text).filter isContent = text.filter isContent := by
  induction text generalizing inBreak with
  | nil => rfl
  | cons c text ih =>
      have absent : isBlank c = true → (c :: text).filter isContent = text.filter isContent :=
        fun blank => List.filter_cons_of_neg (by simp [isContent, blank])
      unfold collapseFrom
      split
      · next breaks =>
          rw [absent (isBlank_of_isLineBreak breaks)]
          split
          · exact ih true
          · rw [List.filter_cons_of_neg (by decide), ih]
      · split
        · next skipped =>
            rw [absent (Bool.and_eq_true _ _ ▸ skipped).2, ih]
        · rw [List.filter_cons, List.filter_cons, ih]

theorem content_escapeFrom (escaped : Bool) (text : Text) :
    (escapeFrom escaped text).filter isContent = text.filter isContent := by
  induction text generalizing escaped with
  | nil => rfl
  | cons c text ih =>
      unfold escapeFrom
      split
      · rw [List.filter_cons, List.filter_cons, ih]
      · split
        · rw [List.filter_cons_of_neg (by decide), List.filter_cons, List.filter_cons, ih]
        · rw [List.filter_cons, List.filter_cons, ih]

/-!
## Escapes undone
-/

/-- Reads a text on with its escapes undone, given whether the first character is escaped: a
backslash that is not escaped itself is left out. -/
def undoFrom : Bool → Text → Text
  | _, [] => []
  | escaped, c :: text =>
      if c = .char '\\' ∧ escaped = false then undoFrom true text else c :: undoFrom false text

def undoEscapes (text : Text) : Text := undoFrom false text

/-- The backslashes that escaping puts in are undone, and nothing else changes for the reader. -/
theorem undoFrom_escapeFrom (escaped : Bool) (text : Text) :
    undoFrom escaped (escapeFrom escaped text) = undoFrom escaped text := by
  induction text generalizing escaped with
  | nil => rfl
  | cons c text ih =>
      unfold escapeFrom
      split
      · next backslash =>
          subst backslash
          cases escaped with
          | false => simpa [undoFrom] using ih true
          | true => simpa [undoFrom] using ih false
      · next other =>
          split
          · next bare =>
              simp only [Bool.and_eq_true, decide_eq_true_eq, Bool.not_eq_true'] at bare
              obtain ⟨rfl, rfl⟩ := bare
              simpa [undoFrom] using ih false
          · simpa [undoFrom, other] using ih false

theorem length_undoFrom_le (escaped : Bool) (text : Text) :
    (undoFrom escaped text).length ≤ text.length := by
  induction text generalizing escaped with
  | nil => exact le_rfl
  | cons c text ih =>
      unfold undoFrom
      split
      · exact (ih true).trans (Nat.le_succ _)
      · exact Nat.succ_le_succ (ih false)

theorem undoEscapes_eq_iff {text : Text} : undoEscapes text = text ↔ .char '\\' ∉ text := by
  unfold undoEscapes
  induction text with
  | nil => simp [undoFrom]
  | cons c text ih =>
      unfold undoFrom
      split
      · next escapes =>
          refine iff_of_false (fun same => ?_) fun absent => absent (escapes.1 ▸ .head _)
          have shorter := length_undoFrom_le true text
          rw [same, List.length_cons] at shorter
          omega
      · next plain =>
          have other : c ≠ .char '\\' := fun backslash => plain ⟨backslash, rfl⟩
          rw [List.cons_inj_right, ih, List.mem_cons, not_or]
          exact (and_iff_right other.symm).symm

theorem mem_collapseFrom_iff {inBreak : Bool} {text : Text} {c : CodePoint}
    (unblank : isBlank c = false) : c ∈ collapseFrom inBreak text ↔ c ∈ text := by
  have apart : ∀ {d}, isBlank d = true → ¬ c = d := by
    rintro d blank rfl
    rw [blank] at unblank
    cases unblank
  induction text generalizing inBreak with
  | nil => rfl
  | cons d text ih =>
      unfold collapseFrom
      rw [List.mem_cons]
      split
      · next breaks =>
          rw [or_iff_right (apart (isBlank_of_isLineBreak breaks))]
          split
          · exact ih
          · rw [List.mem_cons, or_iff_right (apart (by decide))]
            exact ih
      · split
        · next skipped =>
            rw [or_iff_right (apart (Bool.and_eq_true _ _ ▸ skipped).2)]
            exact ih
        · rw [List.mem_cons]
          exact or_congr_right ih

/-- A body differs from its text by blanks and backslashes only. It is the collapsed text with a
backslash in front of each double quote that stands there behind a run of backslashes of even
length. Undoing its escapes gives the collapsed text back if there were no backslashes in the text,
and only then. -/
theorem literalBody_keeps_content (text : Text) :
    ∃ line, (∀ other, Collapses text other ↔ other = line) ∧
      (literalBody text).filter isContent = text.filter isContent ∧
      literalBody text = (List.zipWith writtenBehind line.inits line).flatten ∧
      (undoEscapes (literalBody text) = line ↔ .char '\\' ∉ text) := by
  refine ⟨collapseBreaks text, fun other => collapses_iff, ?_, escapeQuotes_eq _, ?_⟩
  · exact (content_escapeFrom false _).trans (content_collapseFrom false text)
  · have undone : undoEscapes (literalBody text) = undoEscapes (collapseBreaks text) :=
      undoFrom_escapeFrom false _
    rw [undone, undoEscapes_eq_iff]
    exact not_congr (mem_collapseFrom_iff (by decide))

end Inlay
