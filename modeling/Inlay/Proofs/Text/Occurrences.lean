import Inlay.Proofs.Text.Places

/-!
# Occurrences of a word

An occurrence of a word in a text is a way to write the text with the word in it. Texts that
keep a word apart (`KeepsApart`) hold no part of an occurrence, so that an occurrence in a scanned
text whose tokens were replaced by such texts stands among characters that the scan stepped over
(`pieces_of_occurrence`).
-/

set_option autoImplicit false

namespace Inlay

variable {word image front back before behind : Text} {mark : CodePoint}

/-- The places where a word occurs, each by the text from there on. -/
def placesOf (word text : Text) : List Text := text.tails.filter fun rest => word.isPrefixOf rest

theorem mem_placesOf {text rest : Text} :
    rest ∈ placesOf word text ↔
      ∃ before behind, text = before ++ (word ++ behind) ∧ rest = word ++ behind := by
  simp only [placesOf, List.mem_filter, List.mem_tails, List.isPrefixOf_iff_prefix]
  constructor
  · rintro ⟨⟨before, split⟩, behind, starts⟩
    exact ⟨before, behind, by rw [starts, split], starts.symm⟩
  · rintro ⟨before, behind, rfl, rfl⟩
    exact ⟨⟨before, rfl⟩, behind, rfl⟩

theorem occurs_iff {text : Text} :
    word <:+: text ↔ ∃ before behind, text = before ++ (word ++ behind) := by
  constructor
  · rintro ⟨before, behind, split⟩
    exact ⟨before, behind, by rw [← split, List.append_assoc]⟩
  · rintro ⟨before, behind, rfl⟩
    exact ⟨before, behind, List.append_assoc _ _ _⟩

theorem eq_of_placesOf_length_le {text before' behind' : Text}
    (once : (placesOf word text).length ≤ 1) (first : text = before ++ (word ++ behind))
    (second : text = before' ++ (word ++ behind')) : before = before' := by
  have here : word ++ behind ∈ placesOf word text := mem_placesOf.mpr ⟨_, _, first, rfl⟩
  have there : word ++ behind' ∈ placesOf word text := mem_placesOf.mpr ⟨_, _, second, rfl⟩
  have same : word ++ behind = word ++ behind' := by
    cases places : placesOf word text with
    | nil =>
        rw [places] at here
        cases here
    | cons place others =>
        rw [places] at here there once
        have none : others = [] := List.eq_nil_of_length_eq_zero (by simpa using once)
        rw [none, List.mem_singleton] at here there
        exact here.trans there.symm
  rw [first, same] at second
  exact List.append_cancel_right second

/-! ## Beside a mark and in front of an opening -/

/-- A character that the word does not have stands behind an occurrence or in front of it. -/
theorem occurrence_beside (absent : mark ∉ word)
    (split : front ++ mark :: back = before ++ (word ++ behind)) :
    (∃ rest, front = before ++ (word ++ rest)) ∨
      ∃ more, before = front ++ mark :: more ∧ back = more ++ (word ++ behind) := by
  rcases List.append_eq_append_iff.mp split with ⟨gap, rfl, starts⟩ | ⟨gap, rfl, starts⟩
  · cases gap with
    | nil =>
        cases word with
        | nil => exact .inl ⟨[], by simp⟩
        | cons c word =>
            obtain ⟨rfl, -⟩ := List.cons.inj starts
            exact absurd (.head _) absent
    | cons c gap =>
        obtain ⟨rfl, rest⟩ := List.cons.inj starts
        exact .inr ⟨gap, rfl, rest⟩
  · rcases List.append_eq_append_iff.mp starts with ⟨rest, rfl, -⟩ | ⟨rest, rfl, ends⟩
    · exact .inl ⟨rest, rfl⟩
    · cases rest with
      | nil => exact .inl ⟨[], by simp⟩
      | cons c rest =>
          obtain ⟨rfl, -⟩ := List.cons.inj ends
          exact absurd (List.mem_append_right _ (.head _)) absent

/-- No beginning of the opening ends the word, and the word ends no beginning of it. -/
def CannotEnd (word opening : Text) : Prop :=
  ∀ count < opening.length,
    ¬ opening.take (count + 1) <:+ word ∧ ¬ word <:+ opening.take (count + 1)

instance (word opening : Text) : Decidable (CannotEnd word opening) :=
  inferInstanceAs (Decidable (∀ count < opening.length, _))

theorem occurrence_before_opening {opening : Text} (opens : CannotEnd word opening)
    (split : front ++ opening = before ++ (word ++ behind)) :
    ∃ rest, front = before ++ (word ++ rest) := by
  rw [← List.append_assoc] at split
  rcases List.append_eq_append_iff.mp split with ⟨start, whole, starts⟩ | ⟨rest, rfl, -⟩
  · cases start with
    | nil => exact ⟨[], by simpa using whole.symm⟩
    | cons c start =>
        have beginning : opening.take (start.length + 1) = c :: start := by
          rw [starts, ← List.length_cons (a := c)]
          exact List.take_left
        have bound : start.length < opening.length := by
          rw [starts, List.length_append, List.length_cons]
          omega
        obtain ⟨noEnd, noWord⟩ := opens start.length bound
        rw [beginning] at noEnd noWord
        have wordEnds : word <:+ before ++ word := List.suffix_append _ _
        have startEnds : c :: start <:+ before ++ word := ⟨front, whole.symm⟩
        rcases List.suffix_or_suffix_of_suffix startEnds wordEnds with short | short
        · exact absurd short noEnd
        · exact absurd short noWord
  · exact ⟨rest, List.append_assoc _ _ _⟩

/-! ## Texts that keep a word apart -/

/-- An occurrence of the word beside the text stands in front of it or behind it. -/
def KeepsApart (word image : Text) : Prop :=
  ∀ ⦃front back before behind : Text⦄, front ++ (image ++ back) = before ++ (word ++ behind) →
    (∃ rest, front = before ++ (word ++ rest)) ∨
      ∃ more, before = front ++ (image ++ more) ∧ back = more ++ (word ++ behind)

theorem occurrence_behind_marks {marks : Text} (nonempty : word ≠ [])
    (absent : ∀ c ∈ marks, c ∉ word) (split : marks ++ back = before ++ (word ++ behind)) :
    ∃ more, before = marks ++ more ∧ back = more ++ (word ++ behind) := by
  induction marks generalizing before with
  | nil => exact ⟨before, rfl, split⟩
  | cons c marks ih =>
      have marked : [] ++ c :: (marks ++ back) = before ++ (word ++ behind) := split
      rcases occurrence_beside (absent c (.head _)) marked with ⟨rest, none⟩ | ⟨more, rfl, later⟩
      · have empty := (List.append_eq_nil_iff.mp (List.append_eq_nil_iff.mp none.symm).2).1
        exact absurd empty nonempty
      · obtain ⟨further, rfl, beyond⟩ := ih (fun d member => absent d (.tail _ member)) later
        exact ⟨further, rfl, beyond⟩

/-- A body without the word between characters that the word does not have, behind an opening that
cannot end the word. -/
theorem keepsApart_of_marks {opening body closing : Text} {first last : CodePoint}
    (nonempty : word ≠ []) (opens : CannotEnd word opening) (firstAbsent : first ∉ word)
    (lastAbsent : last ∉ word) (absent : ∀ c ∈ closing, c ∉ word) (clean : ¬ word <:+: body) :
    KeepsApart word (opening ++ first :: (body ++ last :: closing)) := by
  intro front back before behind split
  have marked : (front ++ opening) ++ first :: (body ++ last :: (closing ++ back)) =
      before ++ (word ++ behind) := by simpa using split
  rcases occurrence_beside firstAbsent marked with ⟨rest, ahead⟩ | ⟨more, rfl, inside⟩
  · exact .inl (occurrence_before_opening opens ahead)
  · rcases occurrence_beside lastAbsent inside with ⟨rest, within⟩ | ⟨further, rfl, beyond⟩
    · exact absurd (occurs_iff.mpr ⟨_, _, within⟩) clean
    · obtain ⟨last, rfl, outside⟩ := occurrence_behind_marks nonempty absent beyond
      exact .inr ⟨last, by simp, outside⟩

theorem occurs_joinWith {separator : Text} {texts : List Text} (nonempty : word ≠ [])
    (filled : separator ≠ []) (apart : ∀ c ∈ separator, c ∉ word)
    (occurs : word <:+: Text.joinWith separator texts) : ∃ text ∈ texts, word <:+: text := by
  induction texts with
  | nil => exact absurd (List.infix_nil.mp occurs) nonempty
  | cons text texts ih =>
      cases texts with
      | nil => exact ⟨text, .head _, occurs⟩
      | cons next texts =>
          obtain ⟨before, behind, split⟩ := occurs_iff.mp occurs
          obtain ⟨mark, marks, rfl⟩ := List.exists_cons_of_ne_nil filled
          have marked : text ++ mark :: (marks ++ Text.joinWith (mark :: marks) (next :: texts)) =
              before ++ (word ++ behind) := by simpa [Text.joinWith] using split
          rcases occurrence_beside (apart mark (.head _)) marked with
            ⟨rest, within⟩ | ⟨more, -, later⟩
          · exact ⟨text, .head _, occurs_iff.mpr ⟨_, _, within⟩⟩
          · obtain ⟨further, -, beyond⟩ :=
              occurrence_behind_marks nonempty (fun c member => apart c (.tail _ member)) later
            obtain ⟨found, member, inside⟩ := ih (occurs_iff.mpr ⟨_, _, beyond⟩)
            exact ⟨found, .tail _ member, inside⟩

/-! ## Occurrences in a scanned text -/

variable {α : Type} {pieces : List (Piece α)}

theorem tokensOf_chars (text : Text) : tokensOf (text.map .char : List (Piece α)) = [] := by
  induction text with
  | nil => rfl
  | cons c text ih => exact ih

/-- An occurrence among images that keep the word apart is made of characters. -/
theorem chars_of_occurrence {imageOf : α → Text}
    (apart : ∀ token ∈ tokensOf pieces, KeepsApart word (imageOf token))
    (split : front ++ renderAll imageOf pieces = before ++ (word ++ behind)) :
    ∃ ahead rest, front.map .char ++ pieces = ahead ++ (word.map .char ++ rest) ∧
      renderAll imageOf ahead = before := by
  induction pieces generalizing front before with
  | nil =>
      refine ⟨before.map .char, behind.map .char, ?_, renderAll_chars before⟩
      have whole : front = before ++ (word ++ behind) := by simpa [renderAll] using split
      simp [whole]
  | cons piece pieces ih =>
      cases piece with
      | char c =>
          have shifted : (front ++ [c]) ++ renderAll imageOf pieces =
              before ++ (word ++ behind) := by simpa [renderAll, Piece.render] using split
          obtain ⟨ahead, rest, whole, rendered⟩ := ih apart shifted
          exact ⟨ahead, rest, by simpa using whole, rendered⟩
      | token token =>
          rcases apart token (.head _) split with ⟨rest, rfl⟩ | ⟨more, rfl, later⟩
          · refine ⟨before.map .char, rest.map .char ++ .token token :: pieces, ?_,
              renderAll_chars before⟩
            simp
          · have beyond : [] ++ renderAll imageOf pieces = more ++ (word ++ behind) := later
            obtain ⟨ahead, rest, whole, rendered⟩ :=
              ih (fun other member => apart other (.tail _ member)) beyond
            refine ⟨front.map .char ++ .token token :: ahead, rest, ?_, ?_⟩
            · have split : pieces = ahead ++ (word.map .char ++ rest) := whole
              simp [split]
            · calc renderAll imageOf (front.map .char ++ .token token :: ahead)
                  = renderAll imageOf (front.map .char) ++
                      (imageOf token ++ renderAll imageOf ahead) := by
                    rw [renderAll, List.flatMap_append, List.flatMap_cons]
                    rfl
                _ = front ++ (imageOf token ++ more) := by rw [renderAll_chars, rendered]

namespace Recognizer

variable [Spelled α] {recognizer : Recognizer α} {text : Text} {token : α}

theorem pieces_spellingOf {ahead rest : List (Piece α)}
    (split : recognizer.pieces text = ahead ++ rest) :
    recognizer.pieces (spellingOf rest) = rest := by
  induction ahead generalizing text with
  | nil =>
      rw [List.nil_append] at split
      rw [← split, spelling_pieces]
  | cons piece ahead ih =>
      cases text with
      | nil =>
          rw [pieces_nil] at split
          cases split
      | cons c text =>
          cases outcome : recognizer.read? (c :: text) with
          | none =>
              rw [pieces_cons_of_none outcome] at split
              exact ih (List.cons.inj split).2
          | some result =>
              rw [pieces_of_read? outcome] at split
              exact ih (List.cons.inj split).2

theorem read?_eq_none_of_char {c : CodePoint} {ahead rest : List (Piece α)}
    (split : recognizer.pieces text = ahead ++ .char c :: rest) :
    recognizer.read? (c :: spellingOf rest) = none := by
  have again : recognizer.pieces (c :: spellingOf rest) = .char c :: rest :=
    pieces_spellingOf split
  cases outcome : recognizer.read? (c :: spellingOf rest) with
  | none => rfl
  | some result =>
      rw [pieces_of_read? outcome] at again
      cases again

theorem read?_of_token {ahead rest : List (Piece α)}
    (split : recognizer.pieces text = ahead ++ .token token :: rest) :
    recognizer.read? (spelling token ++ spellingOf rest) = some (token, spellingOf rest) := by
  have again : recognizer.pieces (spelling token ++ spellingOf rest) = .token token :: rest :=
    pieces_spellingOf split
  cases outcome : recognizer.read? (spelling token ++ spellingOf rest) with
  | none =>
      cases spelled : spelling token ++ spellingOf rest with
      | nil =>
          rw [spelled, pieces_nil] at again
          cases again
      | cons c text =>
          rw [spelled] at again outcome
          rw [pieces_cons_of_none outcome] at again
          cases again
  | some result =>
      obtain ⟨own, behind⟩ := result
      rw [pieces_of_read? outcome] at again
      obtain ⟨same, tail⟩ := List.cons.inj again
      cases same
      rw [← tail, spelling_pieces]

/-- The piece is what a scan makes in front of the text. -/
def ReadsBefore (recognizer : Recognizer α) (rest : Text) : Piece α → Prop
  | .char c => recognizer.read? (c :: rest) = none
  | .token token => recognizer.read? (spelling token ++ rest) = some (token, rest)

theorem readsBefore_of_split {ahead behind : List (Piece α)} {piece : Piece α}
    (split : recognizer.pieces text = ahead ++ piece :: behind) :
    recognizer.ReadsBefore (spellingOf behind) piece := by
  cases piece with
  | char c => exact read?_eq_none_of_char split
  | token token => exact read?_of_token split

theorem ReadsBefore.pieces_eq {rest : Text} {piece : Piece α}
    (reads : recognizer.ReadsBefore rest piece) :
    recognizer.pieces (piece.render spelling ++ rest) = piece :: recognizer.pieces rest := by
  cases piece with
  | char c => exact pieces_cons_of_none reads
  | token token => exact pieces_of_read? reads

/-- An occurrence of the word in a text whose tokens were replaced is one of the text itself, at
a place where no token begins. -/
theorem pieces_of_occurrence {imageOf : α → Text} (nonempty : word ≠ [])
    (apart : ∀ token ∈ tokensOf (recognizer.pieces text), KeepsApart word (imageOf token))
    (split : recognizer.replace imageOf text = before ++ (word ++ behind)) :
    ∃ ahead rest, recognizer.pieces text = ahead ++ (word.map .char ++ rest) ∧
      renderAll imageOf ahead = before ∧
      text = spellingOf ahead ++ (word ++ spellingOf rest) ∧
      recognizer.read? (word ++ spellingOf rest) = none := by
  have beside : [] ++ renderAll imageOf (recognizer.pieces text) = before ++ (word ++ behind) :=
    split
  obtain ⟨ahead, rest, whole, rendered⟩ := chars_of_occurrence apart beside
  have pieces : recognizer.pieces text = ahead ++ (word.map .char ++ rest) := whole
  have spelled : spellingOf (word.map .char ++ rest) = word ++ spellingOf rest := by
    rw [spellingOf, List.flatMap_append]
    exact congrArg (· ++ spellingOf rest) (renderAll_chars word)
  refine ⟨ahead, rest, pieces, rendered, ?_, ?_⟩
  · calc text = spellingOf (recognizer.pieces text) := (spelling_pieces text).symm
      _ = spellingOf ahead ++ (word ++ spellingOf rest) := by
        rw [pieces, spellingOf, List.flatMap_append, ← spelled]
        rfl
  · obtain ⟨c, others, rfl⟩ := List.exists_cons_of_ne_nil nonempty
    have here := read?_eq_none_of_char pieces
    rwa [← spelled]

theorem eq_of_occurrences {imageOf : α → Text} {before' behind' : Text} (nonempty : word ≠ [])
    (spelled : ∀ token : α, spelling token ≠ [])
    (apart : ∀ token ∈ tokensOf (recognizer.pieces text), KeepsApart word (imageOf token))
    (once : (placesOf word text).length ≤ 1)
    (first : recognizer.replace imageOf text = before ++ (word ++ behind))
    (second : recognizer.replace imageOf text = before' ++ (word ++ behind')) :
    before = before' := by
  obtain ⟨ahead, rest, pieces, rfl, split, -⟩ := pieces_of_occurrence nonempty apart first
  obtain ⟨ahead', rest', pieces', rfl, split', -⟩ := pieces_of_occurrence nonempty apart second
  have same : spellingOf ahead = spellingOf ahead' := eq_of_placesOf_length_le once split split'
  rcases List.prefix_or_prefix_of_prefix ⟨_, pieces.symm⟩ ⟨_, pieces'.symm⟩ with prior | prior
  · rw [eq_of_length_renderAll_le spelled prior (congrArg List.length same).ge]
  · rw [eq_of_length_renderAll_le spelled prior (congrArg List.length same).le]

/-! ## Tokens that begin with a keyword -/

variable {keyword : Text}

theorem keyword_of_read? {rest : Text} (led : ∀ token : α, keyword <+: spelling token)
    (reads : recognizer.read? text = some (token, rest)) : keyword <+: text := by
  rw [recognizer.splits reads]
  exact (led token).trans (List.prefix_append _ _)

theorem pieces_of_absent (led : ∀ token : α, keyword <+: spelling token)
    (absent : ¬ keyword <:+: text) : recognizer.pieces text = text.map .char := by
  induction text with
  | nil => exact pieces_nil
  | cons c text ih =>
      cases outcome : recognizer.read? (c :: text) with
      | none =>
          rw [pieces_cons_of_none outcome, ih fun later => absent (List.infix_cons later)]
          rfl
      | some result => exact absurd (keyword_of_read? led outcome).isInfix absent

theorem search?_of_absent (led : ∀ token : α, keyword <+: spelling token)
    (absent : ¬ keyword <:+: text) : recognizer.search? text = none := by
  cases found : recognizer.search? text with
  | none => rfl
  | some result =>
      obtain ⟨before, token, rest⟩ := result
      obtain ⟨split, reads⟩ := search?_split found
      have here := (keyword_of_read? led reads).isInfix
      rw [split] at absent
      exact absurd (List.infix_append_of_infix_right here) absent

/-- The first token is found at the first keyword, if it begins there. A keyword that does not
end one of its own beginnings is not met earlier. -/
theorem search?_at_keyword {rest : Text} (led : ∀ token : α, keyword <+: spelling token)
    (unbordered : CannotEnd keyword keyword.dropLast) (absent : ¬ keyword <:+: before)
    (reads : recognizer.read? (keyword ++ behind) = some (token, rest)) :
    recognizer.search? (before ++ (keyword ++ behind)) = some (before, token, rest) := by
  induction before with
  | nil => exact search?_of_read? reads
  | cons c before ih =>
      have later := ih fun inside => absent (List.infix_cons inside)
      cases outcome : recognizer.read? (c :: (before ++ (keyword ++ behind))) with
      | none => simp [search?, outcome, later]
      | some result =>
          have begun : keyword <+: (c :: before) ++ (keyword ++ behind) := keyword_of_read? led outcome
          have shorter : (c :: before) ++ keyword.dropLast <+: (c :: before) ++ (keyword ++ behind) :=
            (List.prefix_append_right_inj _).mpr
              ((List.dropLast_prefix keyword).trans (List.prefix_append _ _))
          have bound : keyword.length ≤ ((c :: before) ++ keyword.dropLast).length := by
            simp only [List.length_append, List.length_cons, List.length_dropLast]
            omega
          obtain ⟨behind', short⟩ := List.prefix_of_prefix_length_le begun shorter bound
          have early : (c :: before) ++ keyword.dropLast = [] ++ (keyword ++ behind') := short.symm
          exact absurd (occurs_iff.mpr ⟨_, occurrence_before_opening unbordered early⟩) absent

end Recognizer

end Inlay
