import Inlay.Discovery.Candidates

/-!
# Wildcards by what they stand for

A wildcard matches a text that its parts stand for, one after another (`accepts_iff_matches`).
Behind two stars and a slash, an excluding pattern excludes every path that it matches from one
of its slashes on, or as a whole (`isExcluded_anyDirectory`).
-/

set_option autoImplicit false

namespace Inlay

namespace Wildcard

/-- The texts that the parts of a wildcard stand for. A star stands for any characters, slashes
included, and every other part for one character. -/
inductive Matches : Wildcard → Text → Prop where
  | nil : Matches [] []
  | many {parts : Wildcard} {rest : Text} (front : Text) :
      Matches parts rest → Matches (.many :: parts) (front ++ rest)
  | one {part : WildcardPart} {parts : Wildcard} {c : CodePoint} {rest : Text} :
      part.admits c = true → Matches parts rest → Matches (part :: parts) (c :: rest)

variable {part : WildcardPart} {parts wildcard : Wildcard} {c : CodePoint} {text : Text}

theorem someTail_eq_true_iff {holds : Text → Bool} :
    someTail holds text = true ↔ ∃ front rest, text = front ++ rest ∧ holds rest = true := by
  induction text with
  | nil =>
      constructor
      · intro here
        exact ⟨[], [], rfl, here⟩
      · intro found
        obtain ⟨front, rest, split, here⟩ := found
        obtain ⟨rfl, rfl⟩ := List.append_eq_nil_iff.mp split.symm
        exact here
  | cons c text ih =>
      rw [someTail, Bool.or_eq_true, ih]
      constructor
      · intro found
        rcases found with here | ⟨front, rest, rfl, later⟩
        · exact ⟨[], c :: text, rfl, here⟩
        · exact ⟨c :: front, rest, rfl, later⟩
      · intro found
        obtain ⟨front, rest, split, held⟩ := found
        cases front with
        | nil => exact .inl (split ▸ held)
        | cons first front => exact .inr ⟨front, rest, (List.cons.inj split).2, held⟩

theorem matches_nil_iff : Matches [] text ↔ text = [] := by
  constructor
  · intro matched
    cases matched
    rfl
  · intro empty
    exact empty ▸ .nil

theorem matches_many_iff :
    Matches (.many :: parts) text ↔ ∃ front rest, text = front ++ rest ∧ Matches parts rest := by
  constructor
  · intro matched
    cases matched with
    | many front behind => exact ⟨front, _, rfl, behind⟩
    | one admitted _ => cases admitted
  · intro ⟨front, rest, split, behind⟩
    exact split ▸ .many front behind

theorem not_matches_one_nil (single : part ≠ .many) : ¬ Matches (part :: parts) [] := by
  intro matched
  generalize empty : ([] : Text) = text at matched
  cases matched with
  | many => exact single rfl
  | one => cases empty

theorem matches_one_cons_iff (single : part ≠ .many) :
    Matches (part :: parts) (c :: text) ↔ part.admits c = true ∧ Matches parts text := by
  constructor
  · intro matched
    generalize whole : c :: text = given at matched
    cases matched with
    | many => exact absurd rfl single
    | one admitted behind =>
        cases whole
        exact ⟨admitted, behind⟩
  · intro ⟨admitted, behind⟩
    exact .one admitted behind

theorem accepts_iff_matches : wildcard.accepts text = true ↔ Matches wildcard text := by
  induction wildcard generalizing text with
  | nil => rw [accepts_nil, List.isEmpty_iff, matches_nil_iff]
  | cons part parts ih =>
      by_cases star : part = .many
      · rw [star, accepts_many, someTail_eq_true_iff, matches_many_iff]
        simp only [ih]
      · cases text with
        | nil => simp [accepts_part_nil star, not_matches_one_nil star]
        | cons c text => rw [accepts_part star, Bool.and_eq_true, ih, matches_one_cons_iff star]

/-- Two stars and a slash are read as such, whatever follows them. -/
theorem ofText_anyDirectory (pattern : Text) :
    ofText (Discovery.anyDirectory ++ pattern) =
      .many :: .many :: .exactly '/' :: ofText pattern := by
  have unread {c : CodePoint} (plain : c ≠ '[') (text : Text) :
      BracketClass.scan.pieces (c :: text) = .char c :: BracketClass.scan.pieces text := by
    refine Recognizer.pieces_cons_of_none ?_
    simp [BracketClass.scan, BracketClass.read?, plain]
  have spelled : Discovery.anyDirectory ++ pattern =
      .char '*' :: .char '*' :: .char '/' :: pattern := rfl
  rw [spelled, ofText, unread (by decide), unread (by decide), unread (by decide)]
  rfl

end Wildcard

namespace Discovery

open Wildcard (Matches)

variable {pattern relative : Text}

theorem matches_anyDirectory_iff :
    Matches (.ofText (anyDirectory ++ pattern)) relative ↔
      ∃ front behind, relative = front ++ .char '/' :: behind ∧
        Matches (.ofText pattern) behind := by
  rw [Wildcard.ofText_anyDirectory, Wildcard.matches_many_iff]
  constructor
  · intro ⟨front, rest, split, matched⟩
    obtain ⟨between, last, rfl, behind⟩ := Wildcard.matches_many_iff.mp matched
    cases behind with
    | one admitted behind =>
        cases of_decide_eq_true admitted
        exact ⟨front ++ between, _, by rw [split, List.append_assoc], behind⟩
  · intro ⟨front, behind, split, matched⟩
    exact ⟨front, _, split, .many [] (.one rfl matched)⟩

/-- A pattern excludes the paths that it matches. What stands behind two stars and a slash may also
match alone. -/
def Excludes (pattern relative : Text) : Prop :=
  Matches (.ofText pattern) relative ∨
    ∃ rest, pattern = anyDirectory ++ rest ∧ Matches (.ofText rest) relative

theorem excludedBy_iff : excludedBy relative pattern = true ↔ Excludes pattern relative := by
  rw [excludedBy, Bool.or_eq_true, Wildcard.accepts_iff_matches, Excludes]
  refine or_congr_right ?_
  cases behind : Text.after? anyDirectory pattern with
  | none =>
      have other (rest : Text) : pattern ≠ anyDirectory ++ rest := by
        intro split
        rw [Text.after?_eq_some_iff.mpr split] at behind
        cases behind
      simp [other]
  | some rest =>
      obtain rfl := Text.after?_eq_some_iff.mp behind
      simp [Wildcard.accepts_iff_matches]

theorem isExcluded_eq_false_iff {excludes : List Text} :
    isExcluded excludes relative = false ↔ ∀ pattern ∈ excludes, ¬ Excludes pattern relative := by
  simp only [isExcluded, List.any_eq_false, excludedBy_iff]

theorem isExcluded_anyDirectory_iff :
    isExcluded [anyDirectory ++ pattern] relative = true ↔
      Matches (.ofText pattern) relative ∨
        ∃ front behind, relative = front ++ .char '/' :: behind ∧
          Matches (.ofText pattern) behind := by
  have single : isExcluded [anyDirectory ++ pattern] relative =
      excludedBy relative (anyDirectory ++ pattern) := Bool.or_false _
  rw [single, excludedBy_iff, Excludes, matches_anyDirectory_iff, or_comm]
  refine or_congr_left ⟨?_, fun matched => ⟨pattern, rfl, matched⟩⟩
  intro ⟨rest, same, matched⟩
  rwa [List.append_cancel_left same]

/-- Behind two stars and a slash, a pattern excludes the paths that it matches as a whole or from
one of their slashes on, and so all paths that lead on to one of these. -/
theorem isExcluded_anyDirectory (pattern relative : Text) :
    (isExcluded [anyDirectory ++ pattern] relative = true ↔
      Matches (.ofText pattern) relative ∨
        ∃ front behind, relative = front ++ .char '/' :: behind ∧
          Matches (.ofText pattern) behind) ∧
    ∀ directory : Text, isExcluded [anyDirectory ++ pattern] relative = true →
      isExcluded [anyDirectory ++ pattern] (directory ++ .char '/' :: relative) = true := by
  refine ⟨isExcluded_anyDirectory_iff, fun directory held => ?_⟩
  refine isExcluded_anyDirectory_iff.mpr (.inr ?_)
  rcases isExcluded_anyDirectory_iff.mp held with whole | ⟨front, behind, rfl, matched⟩
  · exact ⟨directory, relative, rfl, whole⟩
  · exact ⟨directory ++ .char '/' :: front, behind, by simp, matched⟩

theorem isExcluded_anyDirectory_of_declarations :
    isExcluded ["**/*.d.ts"] "lib/card.d.ts" = true ∧
      isExcluded ["**/*.d.ts"] "app/lib/card.d.ts" = true := by
  have excluded : isExcluded ["**/*.d.ts"] "lib/card.d.ts" = true := by decide
  exact ⟨excluded, (isExcluded_anyDirectory "*.d.ts" "lib/card.d.ts").2 "app" excluded⟩

end Discovery

end Inlay
