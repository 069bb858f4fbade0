import Inlay.Proofs.Text.Occurrences

/-!
# Scans that agree up to a place

A scan breaks behind some pieces if no token reaches over their end. Where a token is read from
its own characters, what is written behind a break does not decide what stands in front of it
(`eq_of_breaksBehind`).
-/

set_option autoImplicit false

namespace Inlay.Recognizer

variable {α : Type} [Spelled α] {recognizer : Recognizer α}
  {front ahead back : List (Piece α)} {piece : Piece α} {text first second : Text}

/-- The pieces are what a scan reads in front of the text. -/
def BreaksBehind (recognizer : Recognizer α) (front : List (Piece α)) (text : Text) : Prop :=
  recognizer.pieces (spellingOf front ++ text) = front ++ recognizer.pieces text

theorem breaksBehind_of_split (split : recognizer.pieces text = front ++ back) :
    text = spellingOf front ++ spellingOf back ∧
      recognizer.BreaksBehind front (spellingOf back) := by
  have whole : text = spellingOf front ++ spellingOf back := by
    rw [← recognizer.spelling_pieces text, split]
    exact List.flatMap_append
  refine ⟨whole, ?_⟩
  rw [BreaksBehind, ← whole, split, pieces_spellingOf split]

namespace BreaksBehind

theorem tail (breaks : recognizer.BreaksBehind (piece :: front) text) :
    recognizer.BreaksBehind front text := by
  have split : recognizer.pieces (spellingOf (piece :: front) ++ text) =
      [piece] ++ (front ++ recognizer.pieces text) := breaks
  have later := pieces_spellingOf split
  have spelled : spellingOf (front ++ recognizer.pieces text) = spellingOf front ++ text := by
    rw [spellingOf, List.flatMap_append]
    exact congrArg (spellingOf front ++ ·) (recognizer.spelling_pieces text)
  rwa [spelled] at later

theorem readsBefore (breaks : recognizer.BreaksBehind (piece :: front) text) :
    recognizer.ReadsBefore (spellingOf front ++ text) piece := by
  have split : recognizer.pieces (spellingOf (piece :: front) ++ text) =
      [] ++ piece :: recognizer.pieces (spellingOf front ++ text) := by
    rw [breaks.tail]
    exact breaks
  have reads := readsBefore_of_split split
  rwa [recognizer.spelling_pieces] at reads

theorem read?_of_token {token : α}
    (breaks : recognizer.BreaksBehind (.token token :: front) text) :
    recognizer.read? (spelling token ++ (spellingOf front ++ text)) =
      some (token, spellingOf front ++ text) := breaks.readsBefore

theorem read?_of_char {c : CodePoint} (breaks : recognizer.BreaksBehind (.char c :: front) text) :
    recognizer.read? (c :: (spellingOf front ++ text)) = none := breaks.readsBefore

theorem render_ne_nil (breaks : recognizer.BreaksBehind (piece :: front) text) :
    piece.render spelling ≠ [] := by
  cases piece with
  | char c => exact List.cons_ne_nil c []
  | token token => exact recognizer.consumes breaks.read?_of_token

end BreaksBehind

/-- Tokens that end in front of the first text are read in front of the second one as well. -/
def ReadsAlike (recognizer : Recognizer α) (first second : Text) : Prop :=
  ∀ ⦃front rest : Text⦄ ⦃token : α⦄,
    recognizer.read? (front ++ first) = some (token, rest ++ first) →
    recognizer.read? (front ++ second) = some (token, rest ++ second)

/-- Of the same characters a scan makes the same pieces, if it breaks behind them. -/
theorem eq_of_breaksBehind (forth : recognizer.ReadsAlike first second)
    (back : recognizer.ReadsAlike second first)
    (left : recognizer.BreaksBehind front first) (right : recognizer.BreaksBehind ahead second)
    (same : spellingOf front = spellingOf ahead) : front = ahead := by
  induction front generalizing ahead with
  | nil =>
      cases ahead with
      | nil => rfl
      | cons piece ahead =>
          have empty := (List.append_eq_nil_iff.mp same.symm).1
          exact absurd empty right.render_ne_nil
  | cons piece front ih =>
      cases ahead with
      | nil =>
          have empty := (List.append_eq_nil_iff.mp same).1
          exact absurd empty left.render_ne_nil
      | cons other ahead =>
          have rest : piece.render spelling = other.render spelling → front = ahead := by
            intro whole
            have split : piece.render spelling ++ spellingOf front =
                other.render spelling ++ spellingOf ahead := same
            rw [whole] at split
            exact ih left.tail right.tail (List.append_cancel_left split)
          rcases piece with c | token <;> rcases other with d | otherToken
          case char.char =>
            obtain ⟨rfl, -⟩ := List.cons.inj same
            rw [rest rfl]
          case char.token =>
            -- A token behind the second text only would be read in front of the first one too.
            have reads := right.read?_of_token
            rw [← List.append_assoc] at reads
            have other : spelling otherToken ++ spellingOf ahead = c :: spellingOf front :=
              same.symm
            have read := back reads
            rw [other] at read
            have unread := left.read?_of_char
            rw [← List.cons_append, read] at unread
            cases unread
          case token.char =>
            have reads := left.read?_of_token
            rw [← List.append_assoc] at reads
            have other : spelling token ++ spellingOf front = d :: spellingOf ahead := same
            have read := forth reads
            rw [other] at read
            have unread := right.read?_of_char
            rw [← List.cons_append, read] at unread
            cases unread
          case token.token =>
            have reads := left.read?_of_token
            rw [← List.append_assoc] at reads
            have other : spelling token ++ spellingOf front =
                spelling otherToken ++ spellingOf ahead := same
            have read := forth reads
            rw [other, List.append_assoc, right.read?_of_token] at read
            simp only [Option.some.injEq, Prod.mk.injEq] at read
            obtain ⟨rfl, -⟩ := read
            rw [rest rfl]

end Inlay.Recognizer
