import Inlay.Text.Basic

/-!
# Scanning

A recogniser reads one token from the front of a text. Scanning applies it from left to
right: where it reads a token the scan continues behind the token, elsewhere it steps over
one character. The pieces of a scan spell the scanned text (`spelling_pieces`).
-/

set_option autoImplicit false

namespace Inlay

/-- A kind of token that knows how it is written. -/
class Spelled (α : Type) where
  spelling : α → Text

export Spelled (spelling)

/-- A reader of one token at the front of a text: it takes the spelling of the token, which
is never empty, and returns the text behind it. -/
structure Recognizer (α : Type) [Spelled α] where
  read? : Text → Option (α × Text)
  splits : ∀ {text rest : Text} {token : α},
    read? text = some (token, rest) → text = spelling token ++ rest
  consumes : ∀ {text rest : Text} {token : α},
    read? text = some (token, rest) → spelling token ≠ []

/-- One step of a scan: a token, or a character at which no token starts. -/
inductive Piece (α : Type) where
  | char (c : CodePoint)
  | token (value : α)
deriving Repr, DecidableEq

variable {α : Type}

/-- What is written for a piece when each token is replaced by its image. -/
def Piece.render (image : α → Text) : Piece α → Text
  | .char c => [c]
  | .token value => image value

def spellingOf [Spelled α] (pieces : List (Piece α)) : Text :=
  pieces.flatMap (Piece.render spelling)

/-- The tokens among the pieces of a scan, in order. -/
def tokensOf (pieces : List (Piece α)) : List α :=
  pieces.filterMap fun
    | .char _ => none
    | .token value => some value

/-- The text of the pieces with the given images in the places of the tokens, in order. -/
def fill : List (Piece α) → List Text → Text
  | [], _ => []
  | .char c :: pieces, images => c :: fill pieces images
  | .token _ :: pieces, image :: images => image ++ fill pieces images
  | .token _ :: pieces, [] => fill pieces []

namespace Recognizer

variable [Spelled α] (recognizer : Recognizer α)

/-- The pieces of a text whose first `pending` characters belong to a token that was read
before. -/
def piecesAfter : Nat → Text → List (Piece α)
  | _, [] => []
  | pending + 1, _ :: text => piecesAfter pending text
  | 0, c :: text =>
      match recognizer.read? (c :: text) with
      | some (token, _) => .token token :: piecesAfter ((spelling token).length - 1) text
      | none => .char c :: piecesAfter 0 text

def pieces (text : Text) : List (Piece α) := recognizer.piecesAfter 0 text

/-- The text before the first token, the token, and the text behind it. -/
def search? : Text → Option (Text × α × Text)
  | [] => none
  | c :: text =>
      match recognizer.read? (c :: text) with
      | some (token, rest) => some ([], token, rest)
      | none => (search? text).map fun (before, token, rest) => (c :: before, token, rest)

def replace (image : α → Text) (text : Text) : Text :=
  (recognizer.pieces text).flatMap (Piece.render image)

variable {recognizer}

theorem read?_nil : recognizer.read? [] = none := by
  cases outcome : recognizer.read? [] with
  | none => rfl
  | some result =>
      obtain ⟨token, rest⟩ := result
      have empty := List.append_eq_nil_iff.mp (recognizer.splits outcome).symm
      exact absurd empty.1 (recognizer.consumes outcome)

theorem piecesAfter_eq_drop (pending : Nat) (text : Text) :
    recognizer.piecesAfter pending text = recognizer.pieces (text.drop pending) := by
  induction pending generalizing text with
  | zero => rfl
  | succ pending ih =>
      cases text with
      | nil => simp [piecesAfter, pieces]
      | cons c text => simp [piecesAfter, ih]

@[simp]
theorem pieces_nil : recognizer.pieces [] = [] := by
  simp [pieces, piecesAfter]

theorem pieces_of_read? {text rest : Text} {token : α}
    (outcome : recognizer.read? text = some (token, rest)) :
    recognizer.pieces text = .token token :: recognizer.pieces rest := by
  cases text with
  | nil => simp [read?_nil] at outcome
  | cons c text =>
      have split := recognizer.splits outcome
      have consumed := recognizer.consumes outcome
      simp only [pieces, piecesAfter, outcome, List.cons.injEq, true_and]
      rw [piecesAfter_eq_drop, pieces]
      cases spelled : spelling token with
      | nil => exact absurd spelled consumed
      | cons d tail =>
          rw [spelled, List.cons_append] at split
          simp [(List.cons.injEq .. ▸ split).2]

theorem pieces_cons_of_none {c : CodePoint} {text : Text}
    (outcome : recognizer.read? (c :: text) = none) :
    recognizer.pieces (c :: text) = .char c :: recognizer.pieces text := by
  simp [pieces, piecesAfter, outcome]

theorem spelling_pieces (text : Text) : spellingOf (recognizer.pieces text) = text := by
  induction bound : text.length using Nat.strongRecOn generalizing text with
  | ind size ih =>
      cases text with
      | nil => simp [spellingOf]
      | cons c text =>
          cases outcome : recognizer.read? (c :: text) with
          | none =>
              have tail := ih text.length (by simp [← bound]) text rfl
              simp only [spellingOf] at tail ⊢
              simp [pieces_cons_of_none outcome, Piece.render, tail]
          | some result =>
              obtain ⟨token, rest⟩ := result
              have split := recognizer.splits outcome
              have shorter : rest.length < size := by
                have consumed := List.length_pos_iff.mpr (recognizer.consumes outcome)
                have lengths := congrArg List.length split
                simp only [List.length_append] at lengths
                omega
              have tail := ih rest.length shorter rest rfl
              simp only [spellingOf] at tail ⊢
              simp [pieces_of_read? outcome, Piece.render, tail, ← split]

end Recognizer

end Inlay
