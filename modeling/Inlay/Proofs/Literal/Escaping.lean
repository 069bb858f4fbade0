import Inlay.Literal.Body
import Mathlib.Algebra.Ring.Parity
import Mathlib.Data.List.Induction

/-!
# Escaped quotes and the form of literal bodies

A character is escaped if the run of backslashes in front of it has odd length. Along a text this
is followed by one flag (`endsEscaped`), which is what the escaping of quotes carries with it.
The texts that `literalBody` leaves alone are those without line breaks whose quotes are all
escaped, and every body is one of them.
-/

set_option autoImplicit false

namespace Inlay

/-!
## Runs of backslashes
-/

def trailingBackslashes (text : Text) : Nat :=
  (text.reverse.takeWhile fun c => c = .char '\\').length

/-- Whether the character behind `c` is escaped, given whether `c` itself is. -/
def escapesNext (escaped : Bool) (c : CodePoint) : Bool := c = .char '\\' && !escaped

/-- Whether what follows a text is escaped, given whether the text begins escaped. -/
def endsEscaped (escaped : Bool) (text : Text) : Bool := text.foldl escapesNext escaped

@[simp]
theorem endsEscaped_nil (escaped : Bool) : endsEscaped escaped [] = escaped := rfl

@[simp]
theorem endsEscaped_cons (escaped : Bool) (c : CodePoint) (text : Text) :
    endsEscaped escaped (c :: text) = endsEscaped (escapesNext escaped c) text := rfl

theorem escapesNext_of_ne {c : CodePoint} (other : c ≠ .char '\\') (escaped : Bool) :
    escapesNext escaped c = false := by
  simp [escapesNext, other]

theorem escapesNext_backslash (escaped : Bool) :
    escapesNext escaped (.char '\\') = !escaped := rfl

theorem trailingBackslashes_backslash (text : Text) :
    trailingBackslashes (text ++ [.char '\\']) = trailingBackslashes text + 1 := by
  simp [trailingBackslashes]

theorem trailingBackslashes_of_ne {c : CodePoint} (other : c ≠ .char '\\') (text : Text) :
    trailingBackslashes (text ++ [c]) = 0 := by
  simp [trailingBackslashes, other]

/-- The flag at the end of a text tells the parity of its last run of backslashes. -/
theorem endsEscaped_iff {text : Text} :
    endsEscaped false text = true ↔ Odd (trailingBackslashes text) := by
  induction text using List.reverseRecOn with
  | nil => simp [trailingBackslashes]
  | append_singleton text c ih =>
      have last : endsEscaped false (text ++ [c]) = escapesNext (endsEscaped false text) c :=
        List.foldl_append
      rw [last]
      by_cases backslash : c = .char '\\'
      · subst backslash
        rw [trailingBackslashes_backslash, escapesNext_backslash, Nat.odd_add_one, ← ih]
        simp
      · rw [trailingBackslashes_of_ne backslash, escapesNext_of_ne backslash]
        simp

/-!
## Escaped quotes
-/

/-- Every double quote of a text is escaped, given whether the text begins escaped. -/
def QuotesEscaped (escaped : Bool) (text : Text) : Prop :=
  ∀ before behind, text = before ++ .char '"' :: behind → endsEscaped escaped before = true

theorem quotesEscaped_nil (escaped : Bool) : QuotesEscaped escaped [] := by
  intro before behind split
  simp at split

theorem quotesEscaped_cons_iff {escaped : Bool} {c : CodePoint} {text : Text} :
    QuotesEscaped escaped (c :: text) ↔
      (c = .char '"' → escaped = true) ∧ QuotesEscaped (escapesNext escaped c) text := by
  constructor
  · intro quotes
    refine ⟨fun quote => quotes [] text (by rw [quote]; rfl), ?_⟩
    intro before behind split
    exact quotes (c :: before) behind (by rw [split]; rfl)
  · rintro ⟨first, later⟩ before behind split
    cases before with
    | nil => exact first (List.cons.inj split).1
    | cons d before =>
        obtain ⟨rfl, rest⟩ := List.cons.inj split
        exact later before behind rest

theorem quotesEscaped_escapeFrom (escaped : Bool) (text : Text) :
    QuotesEscaped escaped (escapeFrom escaped text) := by
  induction text generalizing escaped with
  | nil => exact quotesEscaped_nil escaped
  | cons c text ih =>
      unfold escapeFrom
      split
      · next backslash =>
          subst backslash
          exact quotesEscaped_cons_iff.mpr ⟨by simp, ih _⟩
      · next other =>
          split
          · next bare =>
              -- The inserted backslash escapes the quote, and nothing behind the quote.
              simp only [Bool.and_eq_true, decide_eq_true_eq, Bool.not_eq_true'] at bare
              obtain ⟨rfl, rfl⟩ := bare
              refine quotesEscaped_cons_iff.mpr ⟨by simp, ?_⟩
              exact quotesEscaped_cons_iff.mpr ⟨fun _ => rfl, ih _⟩
          · next covered =>
              have next : escapesNext escaped c = false := escapesNext_of_ne other escaped
              refine quotesEscaped_cons_iff.mpr ⟨fun quote => ?_, next ▸ ih _⟩
              simpa [quote] using covered

theorem escapeFrom_of_quotesEscaped {escaped : Bool} {text : Text}
    (quotes : QuotesEscaped escaped text) : escapeFrom escaped text = text := by
  induction text generalizing escaped with
  | nil => rfl
  | cons c text ih =>
      obtain ⟨first, later⟩ := quotesEscaped_cons_iff.mp quotes
      unfold escapeFrom
      split
      · next backslash =>
          rw [backslash, escapesNext_backslash] at later
          rw [ih later]
      · next other =>
          rw [escapesNext_of_ne other] at later
          have covered : ¬ (decide (c = .char '"') && !escaped) = true := by
            simpa using first
          rw [if_neg covered, ih later]

theorem mem_escapeFrom {escaped : Bool} {text : Text} {c : CodePoint}
    (member : c ∈ escapeFrom escaped text) : c = .char '\\' ∨ c ∈ text := by
  induction text generalizing escaped with
  | nil => cases member
  | cons d text ih =>
      have later : ∀ {flag}, c ∈ escapeFrom flag text → c = .char '\\' ∨ c ∈ d :: text :=
        fun inside => (ih inside).imp_right (.tail d)
      unfold escapeFrom at member
      split at member
      · rcases List.mem_cons.mp member with rfl | inside
        · exact .inr (.head _)
        · exact later inside
      · split at member
        · rcases List.mem_cons.mp member with rfl | behind
          · exact .inl rfl
          · rcases List.mem_cons.mp behind with rfl | inside
            · exact .inr (.head _)
            · exact later inside
        · rcases List.mem_cons.mp member with rfl | inside
          · exact .inr (.head _)
          · exact later inside

/-!
## Line breaks
-/

theorem isLineBreak_of_mem_collapseFrom {inBreak : Bool} {text : Text} {c : CodePoint}
    (member : c ∈ collapseFrom inBreak text) : isLineBreak c = false := by
  induction text generalizing inBreak with
  | nil => cases member
  | cons d text ih =>
      unfold collapseFrom at member
      split at member
      · split at member
        · exact ih member
        · rcases List.mem_cons.mp member with rfl | inside
          · rfl
          · exact ih inside
      · next plain =>
          split at member
          · exact ih member
          · rcases List.mem_cons.mp member with rfl | inside
            · exact Bool.eq_false_iff.mpr plain
            · exact ih inside

theorem collapseBreaks_of_no_break {text : Text} (plain : ∀ c ∈ text, isLineBreak c = false) :
    collapseBreaks text = text := by
  unfold collapseBreaks
  induction text with
  | nil => rfl
  | cons c text ih =>
      have later := ih fun d member => plain d (.tail c member)
      simp [collapseFrom, plain c (.head text), later]

/-!
## Bodies
-/

/-- The form of literal bodies: they stand on one line, and each double quote is behind a run of
backslashes of odd length. -/
structure IsLiteralBody (text : Text) : Prop where
  noLineFeed : .char '\n' ∉ text
  noReturn : .char '\r' ∉ text
  escaped : ∀ before behind, text = before ++ .char '"' :: behind →
    Odd (trailingBackslashes before)

theorem IsLiteralBody.quotesEscaped {text : Text} (body : IsLiteralBody text) :
    QuotesEscaped false text :=
  fun before behind split => endsEscaped_iff.mpr (body.escaped before behind split)

theorem IsLiteralBody.no_break {text : Text} (body : IsLiteralBody text) :
    ∀ c ∈ text, isLineBreak c = false := by
  intro c member
  cases breaks : isLineBreak c with
  | false => rfl
  | true =>
      simp only [isLineBreak, Bool.or_eq_true, beq_iff_eq] at breaks
      rcases breaks with rfl | rfl
      · exact absurd member body.noLineFeed
      · exact absurd member body.noReturn

theorem isLiteralBody_literalBody (text : Text) : IsLiteralBody (literalBody text) := by
  have plain : ∀ c ∈ literalBody text, isLineBreak c = false := by
    intro c member
    rcases mem_escapeFrom member with rfl | inside
    · rfl
    · exact isLineBreak_of_mem_collapseFrom inside
  refine ⟨fun member => ?_, fun member => ?_, fun before behind split => ?_⟩
  · exact absurd (plain _ member) (by decide)
  · exact absurd (plain _ member) (by decide)
  · exact endsEscaped_iff.mp (quotesEscaped_escapeFrom false _ before behind split)

theorem IsLiteralBody.literalBody_eq {text : Text} (body : IsLiteralBody text) :
    literalBody text = text := by
  unfold literalBody escapeQuotes
  rw [collapseBreaks_of_no_break body.no_break, escapeFrom_of_quotesEscaped body.quotesEscaped]

/-- A body stands on one line, its double quotes are all escaped, and it is its own body. Texts
that are not of this form are changed. -/
theorem literalBody_idempotent (text : Text) :
    IsLiteralBody (literalBody text) ∧ literalBody (literalBody text) = literalBody text ∧
      (literalBody text = text ↔ IsLiteralBody text) := by
  have form := isLiteralBody_literalBody text
  refine ⟨form, form.literalBody_eq, ?_⟩
  constructor
  · intro fixed
    rw [← fixed]
    exact form
  · intro body
    exact body.literalBody_eq

/-!
## Words of a body
-/

section Words

variable {word text : Text}

/-- Behind a line break, blanks are left out, but none of them is part of a word. -/
theorem prefix_of_prefix_collapseFrom (spaced : .char ' ' ∉ word)
    (starts : word <+: collapseFrom false text) : word <+: text := by
  induction word generalizing text with
  | nil => exact List.nil_prefix
  | cons d word ih =>
      obtain ⟨other, absent⟩ := not_or.mp (mt List.mem_cons.mpr spaced)
      cases text with
      | nil => simp [collapseFrom] at starts
      | cons c text =>
          unfold collapseFrom at starts
          split at starts
          · exact absurd (List.cons_prefix_cons.mp starts).1.symm other
          · obtain ⟨rfl, later⟩ := List.cons_prefix_cons.mp starts
            exact List.cons_prefix_cons.mpr ⟨rfl, ih absent later⟩

theorem infix_of_infix_collapseFrom {inBreak : Bool} (filled : word ≠ [])
    (spaced : .char ' ' ∉ word) (occurs : word <:+: collapseFrom inBreak text) :
    word <:+: text := by
  induction text generalizing inBreak with
  | nil => exact absurd (List.infix_nil.mp occurs) filled
  | cons c text ih =>
      unfold collapseFrom at occurs
      split at occurs
      · split at occurs
        · exact List.infix_cons (ih occurs)
        · rcases List.infix_cons_iff.mp occurs with starts | later
          · obtain ⟨d, rest, rfl⟩ := List.exists_cons_of_ne_nil filled
            rw [(List.cons_prefix_cons.mp starts).1] at spaced
            exact absurd (.head _) spaced
          · exact List.infix_cons (ih later)
      · split at occurs
        · exact List.infix_cons (ih occurs)
        · rcases List.infix_cons_iff.mp occurs with starts | later
          · obtain ⟨d, rest, rfl⟩ := List.exists_cons_of_ne_nil filled
            obtain ⟨rfl, onward⟩ := List.cons_prefix_cons.mp starts
            refine List.IsPrefix.isInfix (List.cons_prefix_cons.mpr ⟨rfl, ?_⟩)
            exact prefix_of_prefix_collapseFrom (fun member => spaced (.tail _ member)) onward
          · exact List.infix_cons (ih later)

theorem prefix_of_prefix_escapeFrom {escaped : Bool} (slashed : .char '\\' ∉ word)
    (starts : word <+: escapeFrom escaped text) : word <+: text := by
  induction word generalizing text escaped with
  | nil => exact List.nil_prefix
  | cons d word ih =>
      obtain ⟨other, absent⟩ := not_or.mp (mt List.mem_cons.mpr slashed)
      cases text with
      | nil => simp [escapeFrom] at starts
      | cons c text =>
          unfold escapeFrom at starts
          split at starts
          · next slash => exact absurd ((List.cons_prefix_cons.mp starts).1.trans slash).symm other
          · split at starts
            · exact absurd (List.cons_prefix_cons.mp starts).1.symm other
            · obtain ⟨rfl, later⟩ := List.cons_prefix_cons.mp starts
              exact List.cons_prefix_cons.mpr ⟨rfl, ih absent later⟩

theorem infix_of_infix_escapeFrom {escaped : Bool} (filled : word ≠ [])
    (slashed : .char '\\' ∉ word) (quoted : .char '"' ∉ word)
    (occurs : word <:+: escapeFrom escaped text) : word <:+: text := by
  obtain ⟨d, rest, rfl⟩ := List.exists_cons_of_ne_nil filled
  have other : ∀ {c : CodePoint} {back : Text}, d :: rest <+: c :: back → d = c :=
    fun starts => (List.cons_prefix_cons.mp starts).1
  induction text generalizing escaped with
  | nil => exact absurd (List.infix_nil.mp occurs) filled
  | cons c text ih =>
      unfold escapeFrom at occurs
      split at occurs
      · next slash =>
          rcases List.infix_cons_iff.mp occurs with starts | later
          · exact absurd (.head _) ((other starts).trans slash ▸ slashed)
          · exact List.infix_cons (ih later)
      · split at occurs
        · next quote =>
            have mark : c = .char '"' := by
              simp only [Bool.and_eq_true, decide_eq_true_eq] at quote
              exact quote.1
            rcases List.infix_cons_iff.mp occurs with starts | inside
            · exact absurd (.head _) (other starts ▸ slashed)
            · rcases List.infix_cons_iff.mp inside with starts | later
              · exact absurd (.head _) ((other starts).trans mark ▸ quoted)
              · exact List.infix_cons (ih later)
        · rcases List.infix_cons_iff.mp occurs with starts | later
          · obtain ⟨rfl, onward⟩ := List.cons_prefix_cons.mp starts
            refine List.IsPrefix.isInfix (List.cons_prefix_cons.mpr ⟨rfl, ?_⟩)
            exact prefix_of_prefix_escapeFrom (fun member => slashed (.tail _ member)) onward
          · exact List.infix_cons (ih later)

/-- A word without spaces, backslashes and double quotes stands in the body of a text only if it
stands in the text. -/
theorem infix_of_infix_literalBody (filled : word ≠ []) (spaced : .char ' ' ∉ word)
    (slashed : .char '\\' ∉ word) (quoted : .char '"' ∉ word)
    (occurs : word <:+: literalBody text) : word <:+: text :=
  infix_of_infix_collapseFrom filled spaced
    (infix_of_infix_escapeFrom filled slashed quoted occurs)

end Words

end Inlay
