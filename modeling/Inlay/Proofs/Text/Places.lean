import Inlay.Text.Scan
import Mathlib.Data.List.Infix

/-!
# Places in a scanned text

Where the tokens of a scan stand once they are replaced by their images, and where a search finds
its token. A stretch of the text that is apart from all images consists of characters that no
token of the scan covers (`pieces_split_of_apart`).
-/

set_option autoImplicit false

namespace Inlay

/-- A stretch of a text: the place of its first character, and the place behind its last one. -/
structure Stretch where
  start : Nat
  stop : Nat
deriving Repr, DecidableEq

def Stretch.IsApart (first second : Stretch) : Prop :=
  first.stop ≤ second.start ∨ second.stop ≤ first.start

instance (first second : Stretch) : Decidable (first.IsApart second) :=
  inferInstanceAs (Decidable (_ ∨ _))

variable {α : Type}

/-- The stretches of the images of the tokens among some pieces, which are written from a place
on. -/
def imageStretches (image : α → Text) : Nat → List (Piece α) → List Stretch
  | _, [] => []
  | place, .char _ :: pieces => imageStretches image (place + 1) pieces
  | place, .token token :: pieces =>
      ⟨place, place + (image token).length⟩ ::
        imageStretches image (place + (image token).length) pieces

abbrev renderAll (image : α → Text) (pieces : List (Piece α)) : Text :=
  pieces.flatMap (Piece.render image)

variable {image : α → Text} {pieces : List (Piece α)}

theorem renderAll_chars (text : Text) : renderAll image (text.map .char) = text := by
  induction text with
  | nil => rfl
  | cons c text ih =>
      calc renderAll image ((c :: text).map .char)
          = c :: renderAll image (text.map .char) := rfl
        _ = c :: text := by rw [ih]

theorem renderAll_of_split {front back : List (Piece α)} {middle : Text}
    (split : pieces = front ++ (middle.map .char ++ back)) :
    renderAll image pieces = renderAll image front ++ (middle ++ renderAll image back) := by
  rw [split, renderAll, List.flatMap_append, List.flatMap_append]
  congr 2
  exact renderAll_chars middle

theorem renderAll_ne_nil (nonempty : ∀ token, image token ≠ []) (filled : pieces ≠ []) :
    renderAll image pieces ≠ [] := by
  cases pieces with
  | nil => exact absurd rfl filled
  | cons piece pieces =>
      cases piece with
      | char c => exact List.cons_ne_nil c _
      | token token => exact List.append_ne_nil_of_left_ne_nil (nonempty token) _

/-- Pieces that go up to the same length of text are the same ones. -/
theorem eq_of_length_renderAll_le {front other : List (Piece α)}
    (nonempty : ∀ token, image token ≠ []) (first : front <+: other)
    (length : (renderAll image other).length ≤ (renderAll image front).length) :
    front = other := by
  obtain ⟨extra, rfl⟩ := first
  have empty : renderAll image extra = [] := by
    apply List.eq_nil_of_length_eq_zero
    simp only [renderAll, List.flatMap_append, List.length_append] at length ⊢
    omega
  cases extra with
  | nil => exact (List.append_nil front).symm
  | cons piece extra => exact absurd empty (renderAll_ne_nil nonempty (List.cons_ne_nil _ _))

theorem chars_of_apart {place : Nat} {middle behind : Text} (nonempty : ∀ token, image token ≠ [])
    (split : renderAll image pieces = middle ++ behind)
    (apart : ∀ stretch ∈ imageStretches image place pieces,
      Stretch.IsApart ⟨place, place + middle.length⟩ stretch) :
    ∃ back, pieces = middle.map .char ++ back ∧ renderAll image back = behind := by
  induction middle generalizing place pieces with
  | nil => exact ⟨pieces, rfl, split⟩
  | cons c middle ih =>
      cases pieces with
      | nil => simp at split
      | cons piece pieces =>
          cases piece with
          | char d =>
              obtain ⟨rfl, later⟩ := List.cons.inj split
              have inside : ∀ stretch ∈ imageStretches image (place + 1) pieces,
                  Stretch.IsApart ⟨place + 1, place + 1 + middle.length⟩ stretch := by
                intro stretch member
                rcases apart stretch member with before | after
                · refine .inl (Nat.le_trans ?_ before)
                  simp only [List.length_cons]
                  omega
                · exact .inr (Nat.le_succ_of_le after)
              obtain ⟨back, rfl, rendered⟩ := ih later inside
              exact ⟨back, rfl, rendered⟩
          | token token =>
              have filled := List.length_pos_iff.mpr (nonempty token)
              rcases apart _ (.head _) with before | after
              · simp only [List.length_cons] at before
                omega
              · dsimp only at after
                omega

/-- A stretch that is apart from all images is made of characters, and the pieces around it are
those of the text around it. -/
theorem pieces_split_of_apart (place : Nat) {before middle behind : Text}
    (nonempty : ∀ token, image token ≠ []) (filled : middle ≠ [])
    (split : renderAll image pieces = before ++ (middle ++ behind))
    (apart : ∀ stretch ∈ imageStretches image place pieces,
      Stretch.IsApart ⟨place + before.length, place + before.length + middle.length⟩ stretch) :
    ∃ front back, pieces = front ++ (middle.map .char ++ back) ∧
      renderAll image front = before ∧ renderAll image back = behind := by
  induction pieces generalizing place before with
  | nil =>
      have empty := (List.append_eq_nil_iff.mp (List.append_eq_nil_iff.mp split.symm).2).1
      exact absurd empty filled
  | cons piece pieces ih =>
      cases before with
      | nil =>
          rw [List.nil_append] at split
          obtain ⟨back, whole, rendered⟩ := chars_of_apart nonempty split apart
          exact ⟨[], back, whole, rfl, rendered⟩
      | cons c before =>
          cases piece with
          | char d =>
              obtain ⟨rfl, later⟩ := List.cons.inj split
              have inside : ∀ stretch ∈ imageStretches image (place + 1) pieces,
                  Stretch.IsApart ⟨place + 1 + before.length,
                    place + 1 + before.length + middle.length⟩ stretch := by
                intro stretch member
                have shift : place + 1 + before.length = place + (d :: before).length := by
                  simp only [List.length_cons]
                  omega
                rw [shift]
                exact apart stretch member
              obtain ⟨front, back, rfl, rendered, others⟩ := ih _ later inside
              exact ⟨.char d :: front, back, rfl, by rw [← rendered]; rfl, others⟩
          | token token =>
              have filledMiddle := List.length_pos_iff.mpr filled
              -- The image does not start behind the stretch, so all of it stands in front.
              have front : (image token).length ≤ (c :: before).length := by
                rcases apart _ (.head _) with after | ahead
                · dsimp only at after
                  omega
                · dsimp only at ahead
                  omega
              obtain ⟨more, whole⟩ : ∃ more, c :: before = image token ++ more := by
                have starts : image token <+: (c :: before) ++ (middle ++ behind) :=
                  ⟨renderAll image pieces, split⟩
                obtain ⟨more, same⟩ :=
                  List.prefix_of_prefix_length_le starts (List.prefix_append _ _) front
                exact ⟨more, same.symm⟩
              rw [whole, List.append_assoc] at split
              have later : renderAll image pieces = more ++ (middle ++ behind) :=
                List.append_cancel_left split
              have inside : ∀ stretch ∈
                  imageStretches image (place + (image token).length) pieces,
                  Stretch.IsApart ⟨place + (image token).length + more.length,
                    place + (image token).length + more.length + middle.length⟩ stretch := by
                intro stretch member
                have shift : place + (image token).length + more.length =
                    place + (c :: before).length := by
                  rw [whole, List.length_append]
                  omega
                rw [shift]
                exact apart stretch (.tail _ member)
              obtain ⟨front, back, rfl, rendered, others⟩ := ih _ later inside
              refine ⟨.token token :: front, back, rfl, ?_, others⟩
              rw [whole, ← rendered]
              rfl

theorem imageStretches_bounds {place : Nat} {stretch : Stretch}
    (member : stretch ∈ imageStretches image place pieces) :
    place ≤ stretch.start ∧ stretch.stop ≤ place + (renderAll image pieces).length := by
  induction pieces generalizing place with
  | nil => cases member
  | cons piece pieces ih =>
      cases piece with
      | char c =>
          have later := ih member
          have length : (renderAll image (.char c :: pieces)).length =
              1 + (renderAll image pieces).length := by
            simp [Piece.render, Nat.add_comm]
          omega
      | token token =>
          have length : (renderAll image (.token token :: pieces)).length =
              (image token).length + (renderAll image pieces).length := by
            simp [Piece.render]
          rcases List.mem_cons.mp member with rfl | inside
          · dsimp only
            omega
          · have later := ih inside
            omega

theorem imageStretches_append (place : Nat) (front back : List (Piece α)) :
    imageStretches image place (front ++ back) =
      imageStretches image place front ++
        imageStretches image (place + (renderAll image front).length) back := by
  induction front generalizing place with
  | nil => rfl
  | cons piece front ih =>
      cases piece with
      | char c =>
          have shift : place + (renderAll image (.char c :: front)).length =
              place + 1 + (renderAll image front).length := by
            simp [Piece.render]
            omega
          rw [shift]
          exact ih (place + 1)
      | token token =>
          have shift : place + (renderAll image (.token token :: front)).length =
              place + (image token).length + (renderAll image front).length := by
            simp [Piece.render]
            omega
          rw [shift]
          exact congrArg (List.cons _) (ih _)

theorem imageStretches_chars (place : Nat) (text : Text) :
    imageStretches image place (text.map .char) = [] := by
  induction text generalizing place with
  | nil => rfl
  | cons c text ih => exact ih (place + 1)

theorem apart_of_pieces_split {front back : List (Piece α)} {middle : Text}
    (split : pieces = front ++ (middle.map .char ++ back)) :
    ∀ stretch ∈ imageStretches image 0 pieces,
      Stretch.IsApart ⟨(renderAll image front).length,
        (renderAll image front).length + middle.length⟩ stretch := by
  intro stretch member
  rw [split, imageStretches_append, imageStretches_append, imageStretches_chars,
    renderAll_chars, List.nil_append, Nat.zero_add] at member
  rcases List.mem_append.mp member with ahead | behind
  · have bounds := imageStretches_bounds ahead
    refine .inr ?_
    dsimp only
    omega
  · exact .inl (imageStretches_bounds behind).1

/-- Two texts begin to differ at one place only, with one character each. -/
theorem eq_of_first_difference {front front' first first' second second' : Text}
    {c c' d d' : CodePoint} (differ : c ≠ d) (differ' : c' ≠ d')
    (one : front ++ c :: first = front' ++ c' :: first')
    (other : front ++ d :: second = front' ++ d' :: second') :
    front = front' ∧ c = c' ∧ d = d' := by
  induction front generalizing front' with
  | nil =>
      cases front' with
      | nil => exact ⟨rfl, (List.cons.inj one).1, (List.cons.inj other).1⟩
      | cons e front' =>
          have same : c = d := (List.cons.inj one).1.trans (List.cons.inj other).1.symm
          exact absurd same differ
  | cons e front ih =>
      cases front' with
      | nil =>
          have same : c' = d' := (List.cons.inj one).1.symm.trans (List.cons.inj other).1
          exact absurd same differ'
      | cons e' front' =>
          obtain ⟨rfl, behind⟩ := List.cons.inj one
          obtain ⟨rfl, same⟩ := ih behind (List.cons.inj other).2
          exact ⟨rfl, same⟩

namespace Recognizer

variable [Spelled α] {recognizer : Recognizer α} {text before rest : Text} {token : α}

theorem search?_split (found : recognizer.search? text = some (before, token, rest)) :
    text = before ++ (spelling token ++ rest) ∧
      recognizer.read? (spelling token ++ rest) = some (token, rest) := by
  induction text generalizing before with
  | nil => cases found
  | cons c text ih =>
      unfold search? at found
      split at found
      · next first behind outcome =>
          cases found
          have split := recognizer.splits outcome
          exact ⟨split, split ▸ outcome⟩
      · obtain ⟨⟨front, first, behind⟩, later, same⟩ := Option.map_eq_some_iff.mp found
        cases same
        obtain ⟨split, reads⟩ := ih later
        exact ⟨by rw [split]; rfl, reads⟩

theorem pieces_of_search? (found : recognizer.search? text = some (before, token, rest)) :
    recognizer.pieces text = before.map .char ++ .token token :: recognizer.pieces rest := by
  induction text generalizing before with
  | nil => cases found
  | cons c text ih =>
      unfold search? at found
      split at found
      · next outcome =>
          cases found
          exact pieces_of_read? outcome
      · next outcome =>
          obtain ⟨⟨front, first, behind⟩, later, same⟩ := Option.map_eq_some_iff.mp found
          cases same
          rw [pieces_cons_of_none outcome, ih later]
          rfl

theorem pieces_of_search?_eq_none (absent : recognizer.search? text = none) :
    recognizer.pieces text = text.map .char := by
  induction text with
  | nil => rfl
  | cons c text ih =>
      unfold search? at absent
      split at absent
      · cases absent
      · next outcome =>
          rw [pieces_cons_of_none outcome, ih (Option.map_eq_none_iff.mp absent)]
          rfl

theorem search?_of_read? (reads : recognizer.read? text = some (token, rest)) :
    recognizer.search? text = some ([], token, rest) := by
  cases text with
  | nil =>
      rw [read?_nil] at reads
      cases reads
  | cons c text => simp [search?, reads]

theorem search?_first {back : Text} (front : Text)
    (reads : recognizer.read? back = some (token, rest)) :
    ∃ before first behind, recognizer.search? (front ++ back) = some (before, first, behind) ∧
      before.length ≤ front.length := by
  induction front with
  | nil => exact ⟨[], token, rest, search?_of_read? reads, Nat.le_refl 0⟩
  | cons c front ih =>
      cases outcome : recognizer.read? (c :: (front ++ back)) with
      | some result =>
          obtain ⟨first, behind⟩ := result
          exact ⟨[], first, behind, search?_of_read? outcome, Nat.zero_le _⟩
      | none =>
          obtain ⟨before, first, behind, found, bound⟩ := ih
          refine ⟨c :: before, first, behind, ?_, Nat.succ_le_succ bound⟩
          simp [search?, outcome, found]

theorem search?_eq_of_length {front back behind : Text} {first : α}
    (found : recognizer.search? (front ++ back) = some (before, first, behind))
    (reads : recognizer.read? back = some (token, rest))
    (length : before.length = front.length) : before = front ∧ first = token ∧ behind = rest := by
  obtain ⟨split, firstReads⟩ := search?_split found
  obtain ⟨same, others⟩ := List.append_inj split.symm length
  rw [others, reads] at firstReads
  cases firstReads
  exact ⟨same, rfl, rfl⟩

end Recognizer

end Inlay
