import Inlay.Text.Scan

/-!
# Wildcards

Patterns for names: a star stands for any characters, a question mark for one, and a class in
brackets for one of those it lists. Slashes are characters like all others.
-/

set_option autoImplicit false

namespace Inlay

/-- A character class as it is written between its brackets. -/
structure BracketClass where
  body : Text
deriving Repr, DecidableEq

namespace BracketClass

instance : Spelled BracketClass where
  spelling bracket := "[" ++ (bracket.body ++ "]")

/-- What may stand in front of the closing bracket without being searched for it: an
exclamation mark, and then a closing bracket of the class itself. -/
def splitOpening (text : Text) : Text × Text :=
  match text with
  | .char '!' :: .char ']' :: rest => (['!', ']'], rest)
  | .char '!' :: rest => (['!'], rest)
  | .char ']' :: rest => ([']'], rest)
  | _ => ([], text)

theorem append_splitOpening (text : Text) :
    (splitOpening text).1 ++ (splitOpening text).2 = text := by
  unfold splitOpening
  split <;> rfl

def read? : Text → Option (BracketClass × Text)
  | .char '[' :: text =>
      (Text.cut? ']' (splitOpening text).2).map fun (body, rest) =>
        (⟨(splitOpening text).1 ++ body⟩, rest)
  | _ => none

def scan : Recognizer BracketClass where
  read? := read?
  splits {text rest bracket} outcome := by
    unfold read? at outcome
    split at outcome
    · next inside =>
        simp only [Option.map_eq_some_iff, Prod.exists, Prod.mk.injEq] at outcome
        obtain ⟨body, tail, cut, rfl, rfl⟩ := outcome
        have whole := append_splitOpening inside
        rw [(Text.cut?_eq_some_iff.mp cut).1] at whole
        simpa [spelling, Text.ofString] using whole.symm
    · simp at outcome
  consumes _ := by simp [spelling]

/-- Cuts the body of a class at the hyphens that form ranges. The number tells how many
characters cannot be such a hyphen: the ones at the front, and both neighbours of a range. -/
def runsFrom : Nat → Text → List Text
  | _, [] => [[]]
  | skip, c :: text =>
      if skip = 0 ∧ c = '-' then [] :: runsFrom 2 text
      else
        match runsFrom (skip - 1) text with
        | [] => [[c]]
        | run :: runs => (c :: run) :: runs

/-- A hyphen at the end of a class forms no range. -/
def keepLastHyphen : List Text → List Text
  | [] => []
  | [run] => [run]
  | [run, []] => [run ++ "-"]
  | run :: runs => run :: keepLastHyphen runs

/-- Removes the ranges that run downwards, with both of their ends, from the last one to the
first. -/
def dropReversed : List Text → List Text
  | [] => []
  | run :: runs =>
      match dropReversed runs with
      | [] => [run]
      | next :: more =>
          match run.getLast?, next.head? with
          | some low, some high =>
              if high < low then (run.dropLast ++ next.tail) :: more else run :: next :: more
          | _, _ => run :: next :: more

/-- The runs of a class: between two neighbouring runs stands a range, from the last character
of the first one to the first character of the second. -/
def runs (bracket : BracketClass) : List Text :=
  let front := if bracket.body.head? = some '!' then 2 else 1
  dropReversed (keepLastHyphen (runsFrom front bracket.body))

/-- Whether a character belongs to the given runs or to a range between them. Where nothing
stands before a range its hyphen stands for itself. -/
def runsHold (c : CodePoint) : List Text → Bool
  | [] => false
  | run :: runs =>
      run.contains c ||
        match runs with
        | [] => false
        | next :: _ =>
            (match run.getLast?, next.head? with
              | some low, some high => low ≤ c && c ≤ high
              | none, _ => c == '-'
              | _, none => false) || runsHold c runs

/-- Whether a class admits a character. An exclamation mark in front admits the others. -/
def admits (bracket : BracketClass) (c : CodePoint) : Bool :=
  match bracket.runs with
  | (.char '!' :: run) :: runs => !runsHold c (run :: runs)
  | runs => runsHold c runs

end BracketClass

/-- A part of a wildcard. -/
inductive WildcardPart where
  | many
  | one
  | ofClass (bracket : BracketClass)
  | exactly (c : CodePoint)
deriving Repr, DecidableEq

namespace WildcardPart

def ofPiece : Piece BracketClass → WildcardPart
  | .char (.char '*') => .many
  | .char (.char '?') => .one
  | .char c => .exactly c
  | .token bracket => .ofClass bracket

/-- Whether a part that stands for one character may stand for the given one. -/
def admits : WildcardPart → CodePoint → Bool
  | .many, _ => false
  | .one, _ => true
  | .ofClass bracket, c => bracket.admits c
  | .exactly d, c => c == d

end WildcardPart

abbrev Wildcard := List WildcardPart

namespace Wildcard

def ofText (text : Text) : Wildcard := (BracketClass.scan.pieces text).map WildcardPart.ofPiece

/-- Whether some end of a text, the text itself included, has a property. -/
def someTail (holds : Text → Bool) : Text → Bool
  | [] => holds []
  | c :: text => holds (c :: text) || someTail holds text

/-- Which ends of a text are empty. The ends of a text stand in order, the whole text first. -/
def emptyTails : Text → List Bool
  | [] => [true]
  | _ :: text => false :: emptyTails text

def someLater : List Bool → List Bool
  | [] => []
  | verdict :: verdicts =>
      match someLater verdicts with
      | [] => [verdict]
      | later :: others => (verdict || later) :: later :: others

/-- Which ends begin with a character that a part admits, with a verdict that holds behind it. -/
def admitted (part : WildcardPart) : Text → List Bool → List Bool
  | [], _ => [false]
  | c :: text, verdicts =>
      (part.admits c && verdicts.tail.headD false) :: admitted part text verdicts.tail

/-- Which ends of a text a wildcard accepts. All of them are found together, so that no star
makes the search start again. -/
def verdicts : Wildcard → Text → List Bool
  | [], text => emptyTails text
  | .many :: parts, text => someLater (verdicts parts text)
  | part :: parts, text => admitted part text (verdicts parts text)

def accepts (wildcard : Wildcard) (text : Text) : Bool := (wildcard.verdicts text).headD false

theorem tail_someLater (verdicts : List Bool) :
    (someLater verdicts).tail = someLater verdicts.tail := by
  cases verdicts with
  | nil => rfl
  | cons verdict verdicts =>
      simp only [someLater, List.tail_cons]
      split
      · next none => simp [none]
      · next some => simp [some]

theorem headD_someLater_cons (verdict : Bool) (verdicts : List Bool) :
    (someLater (verdict :: verdicts)).headD false =
      (verdict || (someLater verdicts).headD false) := by
  simp only [someLater]
  split
  · next none => simp [none]
  · next some => simp [some]

/-- The verdicts on the ends of a text stand behind the one on the text itself. -/
theorem tail_verdicts_cons (wildcard : Wildcard) (c : CodePoint) (text : Text) :
    (wildcard.verdicts (c :: text)).tail = wildcard.verdicts text := by
  induction wildcard with
  | nil => rfl
  | cons part parts ih =>
      cases part <;> simp [verdicts, tail_someLater, admitted, ih]

theorem length_someLater (verdicts : List Bool) :
    (someLater verdicts).length = verdicts.length := by
  induction verdicts with
  | nil => rfl
  | cons verdict verdicts ih =>
      simp only [someLater]
      split
      · next none => simp_all
      · next some => simp_all

theorem length_admitted (part : WildcardPart) (text : Text) (verdicts : List Bool) :
    (admitted part text verdicts).length = text.length + 1 := by
  induction text generalizing verdicts with
  | nil => rfl
  | cons c text ih => simp [admitted, ih]

theorem length_verdicts (wildcard : Wildcard) (text : Text) :
    (wildcard.verdicts text).length = text.length + 1 := by
  induction wildcard with
  | nil =>
      induction text with
      | nil => rfl
      | cons c text ih => simpa [verdicts, emptyTails] using ih
  | cons part parts ih => cases part <;> simp [verdicts, length_someLater, length_admitted, ih]

theorem verdicts_cons (wildcard : Wildcard) (c : CodePoint) (text : Text) :
    wildcard.verdicts (c :: text) = wildcard.accepts (c :: text) :: wildcard.verdicts text := by
  have tail := tail_verdicts_cons wildcard c text
  have length := length_verdicts wildcard (c :: text)
  unfold accepts
  cases found : wildcard.verdicts (c :: text) with
  | nil => simp [found] at length
  | cons verdict others => simpa [found] using tail

theorem accepts_nil (text : Text) : accepts [] text = text.isEmpty := by
  cases text <;> rfl

/-- A star accepts what leaves an end that the parts behind it accept. -/
theorem accepts_many (parts : Wildcard) (text : Text) :
    accepts (.many :: parts) text = someTail parts.accepts text := by
  induction text with
  | nil =>
      have length := length_verdicts parts []
      unfold accepts
      match found : parts.verdicts [] with
      | [] => simp [found] at length
      | [verdict] => simp [verdicts, found, someLater, someTail]
      | _ :: _ :: _ => simp [found] at length
  | cons c text ih =>
      rw [accepts, verdicts, verdicts_cons, headD_someLater_cons, someTail, ← ih]
      rfl

/-- A part that is no star accepts one character in front of what the parts behind it accept. -/
theorem accepts_part {part : WildcardPart} (single : part ≠ .many) (parts : Wildcard)
    (c : CodePoint) (text : Text) :
    accepts (part :: parts) (c :: text) = (part.admits c && parts.accepts text) := by
  have tail := tail_verdicts_cons parts c text
  cases part with
  | many => exact absurd rfl single
  | one | ofClass | exactly => simp [accepts, verdicts, admitted, tail]

/-- A part that is no star accepts no empty text. -/
theorem accepts_part_nil {part : WildcardPart} (single : part ≠ .many) (parts : Wildcard) :
    accepts (part :: parts) [] = false := by
  cases part with
  | many => exact absurd rfl single
  | one | ofClass | exactly => rfl

end Wildcard

end Inlay
