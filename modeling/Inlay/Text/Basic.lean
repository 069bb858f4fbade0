import Inlay.Text.Blank

/-!
# Text

The cuts, joins and trims that the readers of all formats share, each with the equation that
says what it does to the text.
-/

set_option autoImplicit false

namespace Inlay

namespace Text

def after? : Text → Text → Option Text
  | [], text => some text
  | _ :: _, [] => none
  | c :: lead, d :: text => if c = d then after? lead text else none

theorem after?_eq_some_iff {lead text rest : Text} :
    after? lead text = some rest ↔ text = lead ++ rest := by
  induction lead generalizing text with
  | nil => simp [after?, eq_comm]
  | cons c lead ih =>
      cases text with
      | nil => simp [after?]
      | cons d text =>
          by_cases same : c = d
          · subst same; simp [after?, ih]
          · simp [after?, same, Ne.symm same]

def cut? (mark : CodePoint) : Text → Option (Text × Text)
  | [] => none
  | c :: text =>
      if c = mark then some ([], text)
      else (cut? mark text).map fun (before, rest) => (c :: before, rest)

theorem cut?_eq_some_iff {mark : CodePoint} {text before rest : Text} :
    cut? mark text = some (before, rest) ↔ text = before ++ mark :: rest ∧ mark ∉ before := by
  induction text generalizing before with
  | nil => simp [cut?]
  | cons c text ih =>
      by_cases here : c = mark
      · subst here
        cases before with
        | nil => simp [cut?, eq_comm]
        | cons d before => simp +contextual [cut?]
      · cases before with
        | nil => simp [cut?, here]
        | cons d before =>
            simp only [cut?, here, if_false, Option.map_eq_some_iff, Prod.exists]
            constructor
            · rintro ⟨b, r, found, same⟩
              simp only [Prod.mk.injEq, List.cons.injEq] at same
              obtain ⟨⟨rfl, rfl⟩, rfl⟩ := same
              have split := ih.mp found
              exact ⟨by rw [split.1]; rfl, by simp [Ne.symm here, split.2]⟩
            · rintro ⟨split, absent⟩
              simp only [List.cons_append, List.cons.injEq, List.mem_cons, not_or] at split absent
              exact ⟨before, rest, ih.mpr ⟨split.2, absent.2⟩, by rw [split.1]⟩

theorem cut?_eq_none_iff {mark : CodePoint} {text : Text} :
    cut? mark text = none ↔ mark ∉ text := by
  induction text with
  | nil => simp [cut?]
  | cons c text ih =>
      by_cases here : c = mark
      · simp [cut?, here]
      · simp [cut?, here, ih, Ne.symm here]

/-- The pieces of a text between the occurrences of `mark`; there is always one more piece
than there are marks. -/
def splitOn (mark : CodePoint) : Text → List Text
  | [] => [[]]
  | c :: text =>
      if c = mark then [] :: splitOn mark text
      else
        match splitOn mark text with
        | [] => [[c]]
        | piece :: pieces => (c :: piece) :: pieces

def joinWith (separator : Text) : List Text → Text
  | [] => []
  | [piece] => piece
  | piece :: next :: pieces => piece ++ separator ++ joinWith separator (next :: pieces)

def trimStart (text : Text) : Text := text.dropWhile isBlank

def trimEnd (text : Text) : Text := (text.reverse.dropWhile isBlank).reverse

def trim (text : Text) : Text := trimEnd (trimStart text)

/-- A text of blanks only. -/
def isBlankText (text : Text) : Bool := text.all isBlank

/-- The number of characters in front of a bound; a negative bound counts from the end. -/
def boundOf (bound : Int) (text : Text) : Nat :=
  if bound < 0 then (bound + text.length).toNat else bound.toNat

def slice (start stop : Int) (text : Text) : Text :=
  (text.take (boundOf stop text)).drop (boundOf start text)

def hasPart (part : Text) : Text → Bool
  | [] => part.isEmpty
  | c :: text => part.isPrefixOf (c :: text) || hasPart part text

def endsWith (tail text : Text) : Bool := tail.isSuffixOf text

def leadingBlanks (text : Text) : Text := text.takeWhile isBlank

theorem leadingBlanks_append_trimStart (text : Text) :
    leadingBlanks text ++ trimStart text = text := List.takeWhile_append_dropWhile

/-- No blank stands at the front of a text. -/
def StartsUnblank (text : Text) : Prop := ∀ c ∈ text.head?, isBlank c = false

theorem startsUnblank_cons_iff {c : CodePoint} {text : Text} :
    StartsUnblank (c :: text) ↔ isBlank c = false := by
  simp [StartsUnblank]

theorem startsUnblank_trimStart (text : Text) : StartsUnblank (trimStart text) := by
  intro c starts
  have refused := List.head?_dropWhile_not isBlank text
  rw [show (text.dropWhile isBlank).head? = some c from starts] at refused
  exact refused

end Text

end Inlay
