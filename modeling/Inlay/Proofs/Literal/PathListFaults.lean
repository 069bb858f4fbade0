import Inlay.Proofs.Literal.PathListGrammar

/-!
# Where a path list is malformed

The reader stops at the character that no path list has there. What it has read by then is the
beginning of a path list: the closing bracket completes it.
-/

set_option autoImplicit false

namespace Inlay.PathList

open Text (StartsUnblank startsUnblank_cons_iff startsUnblank_trimStart)

theorem startsUnblank_append {front unread behind : Text}
    (starts : StartsUnblank (front ++ unread)) (begins : StartsUnblank behind) :
    StartsUnblank (front ++ behind) := by
  cases front with
  | nil => exact begins
  | cons c front => exact startsUnblank_cons_iff.mpr (startsUnblank_cons_iff.mp starts)

theorem Blanks.trimStart_append_of_unblank (blanks : Blanks) {text : Text}
    (starts : StartsUnblank text) : Text.trimStart (blanks.text ++ text) = text := by
  cases text with
  | nil => rw [List.append_nil, blanks.trimStart_eq_nil]
  | cons c text => exact blanks.trimStart_append (startsUnblank_cons_iff.mp starts) text

/-!
## Entries
-/

/-- What the reader of entries tells by stopping behind a text: a bracket could have ended the
entries there, and no entries go on with the character that is there instead, unless it is the
quote of a path. -/
structure StopsBehind (front unread : Text) : Prop where
  closes : ∃ paths, entries (front ++ [.char ']']) = .ok (paths, [])
  unblank : StartsUnblank unread
  decides : ∀ c ∈ unread.head?, c ≠ .char '\'' → ∀ later,
    entries (front ++ c :: later) = .error (c :: later)

theorem entries_of_mark {c : CodePoint} (bracket : c ≠ .char ']') (quote : c ≠ .char '\'')
    (later : Text) : entries (c :: later) = .error (c :: later) := by
  have unclosed : Text.after? [.char ']'] (c :: later) = none := if_neg (Ne.symm bracket)
  have pathless : path? (c :: later) = none := by
    unfold path?
    split
    · next starts => exact absurd (List.cons.inj starts).1 quote
    · rfl
  rw [entries, unclosed]
  dsimp only
  split
  · rfl
  · next read =>
      rw [pathless] at read
      cases read

theorem entries_behind_comma (path : QuotedPath) (behind gap : Blanks) {text : Text}
    (starts : StartsUnblank text) :
    entries (path.spelling ++ (behind.text ++ .char ',' :: (gap.text ++ text))) =
      (entries text).map fun (paths, rest) => (path.text :: paths, rest) := by
  rw [entries_spelling_append, behind.trimStart_append (by decide)]
  change (entries (Text.trimStart (gap.text ++ text))).map _ = _
  rw [gap.trimStart_append_of_unblank starts]

theorem StopsBehind.behind_comma {front unread : Text} (stops : StopsBehind front unread)
    (starts : StartsUnblank (front ++ unread)) (path : QuotedPath) (behind gap : Blanks) :
    StopsBehind (path.spelling ++ (behind.text ++ .char ',' :: (gap.text ++ front))) unread := by
  have goesOn : ∀ {text}, StartsUnblank text →
      entries (path.spelling ++ (behind.text ++ .char ',' :: (gap.text ++ front)) ++ text) =
        (entries (front ++ text)).map fun (paths, rest) => (path.text :: paths, rest) := by
    intro text begins
    have regrouped := entries_behind_comma path behind gap (startsUnblank_append starts begins)
    simpa only [List.append_assoc, List.cons_append] using regrouped
  refine ⟨?_, stops.unblank, ?_⟩
  · obtain ⟨paths, closed⟩ := stops.closes
    refine ⟨path.text :: paths, ?_⟩
    rw [goesOn (startsUnblank_cons_iff.mpr (by decide)), closed]
    rfl
  · intro c here other later
    have mark : isBlank c = false := stops.unblank c here
    rw [goesOn (startsUnblank_cons_iff.mpr mark), stops.decides c here other later]
    rfl

theorem stopsBehind_path (path : QuotedPath) (behind : Blanks) {unread : Text}
    (starts : StartsUnblank unread) (bracket : ∀ rest, unread ≠ .char ']' :: rest)
    (comma : ∀ rest, unread ≠ .char ',' :: rest) :
    StopsBehind (path.spelling ++ behind.text) unread := by
  refine ⟨⟨[path.text], ?_⟩, starts, ?_⟩
  · simpa only [List.append_assoc] using entries_last path behind []
  · intro c here _ later
    obtain ⟨rest, rfl⟩ : ∃ rest, unread = c :: rest := List.head?_eq_some_iff.mp here
    rw [List.append_assoc, entries_spelling_append,
      behind.trimStart_append (startsUnblank_cons_iff.mp starts)]
    split
    · next closes => exact absurd (congrArg (· :: rest) (List.cons.inj closes).1) (bracket rest)
    · next separates =>
        exact absurd (congrArg (· :: rest) (List.cons.inj separates).1) (comma rest)
    · rfl

theorem stopsBehind_of_entries {text unread : Text} (failed : entries text = .error unread)
    (starts : StartsUnblank text) :
    ∃ front, text = front ++ unread ∧ StopsBehind front unread := by
  fun_induction entries text generalizing unread with
  | case1 => cases failed
  | case2 text unclosed pathless =>
      -- There is neither a bracket nor a path, so nothing was read.
      cases failed
      refine ⟨[], rfl, ⟨[], entries_bracket []⟩, starts, ?_⟩
      intro c here other later
      obtain ⟨rest, rfl⟩ : ∃ rest, text = c :: rest := List.head?_eq_some_iff.mp here
      have bracket : c ≠ .char ']' := by
        rintro rfl
        exact absurd unclosed (by simp [Text.after?])
      exact entries_of_mark bracket other later
  | case3 => cases failed
  | case4 text _ path behind reading next separates unread stopped ih =>
      -- What stops the entries behind the comma stops these.
      cases failed
      obtain ⟨quoted, rfl, rfl⟩ := spelling_of_path? reading
      have begins := startsUnblank_trimStart next
      obtain ⟨front, split, stops⟩ := ih stopped begins
      rw [split] at begins
      refine ⟨_, ?_, stops.behind_comma begins quoted (.leading behind) (.leading next)⟩
      simp only [List.append_assoc, List.cons_append]
      rw [← split, Blanks.leading_append_trimStart, ← separates, Blanks.leading_append_trimStart]
  | case5 => cases failed
  | case6 text _ path behind reading bracket comma =>
      -- Neither a bracket nor a comma follows the path.
      cases failed
      obtain ⟨quoted, rfl, rfl⟩ := spelling_of_path? reading
      refine ⟨_, ?_, stopsBehind_path quoted (.leading behind) (startsUnblank_trimStart behind)
        bracket comma⟩
      rw [List.append_assoc, Blanks.leading_append_trimStart]

/-!
## Whole lists
-/

def IsAccepted (literal : Text) : Prop := ∃ paths, parse literal = .ok paths

theorem isAccepted_iff (before opening : Blanks) {text : Text} (starts : StartsUnblank text) :
    IsAccepted (before.text ++ .char '[' :: (opening.text ++ text)) ↔
      ∃ paths behind, entries text = .ok (paths, behind) ∧ Text.trimStart behind = [] := by
  have opened := before.trimStart_append (c := .char '[') (by decide) (opening.text ++ text)
  constructor
  · intro ⟨paths, read⟩
    obtain ⟨inside, behind, opens, listed, ends⟩ := parse_eq_ok_iff.mp read
    rw [opened] at opens
    cases opens
    rw [opening.trimStart_append_of_unblank starts] at listed
    exact ⟨paths, behind, listed, ends⟩
  · intro ⟨paths, behind, listed, ends⟩
    rw [← opening.trimStart_append_of_unblank starts] at listed
    exact ⟨paths, parse_eq_ok_iff.mpr ⟨_, behind, opened, listed, ends⟩⟩

/-- What the reader of whole lists tells by stopping behind a text: some list goes on from there,
but none with the character that is there instead, unless it is a quote. -/
structure RefusesBehind (front unread : Text) : Prop where
  viable : ∃ rest, IsAccepted (front ++ rest)
  unblank : StartsUnblank unread
  decides : ∀ c ∈ unread.head?, c ≠ .char '\'' → ∀ later, ¬ IsAccepted (front ++ c :: later)

theorem refusesBehind_blanks (before : Blanks) {unread : Text} (starts : StartsUnblank unread)
    (unopened : ∀ inside, unread ≠ .char '[' :: inside) : RefusesBehind before.text unread := by
  refine ⟨⟨[.char '[', .char ']'], ?_⟩, starts, ?_⟩
  · exact (isAccepted_iff before ⟨[], by simp⟩ (startsUnblank_cons_iff.mpr (by decide))).mpr
      ⟨[], [], entries_bracket [], rfl⟩
  · intro c here _ later ⟨paths, read⟩
    obtain ⟨rest, rfl⟩ : ∃ rest, unread = c :: rest := List.head?_eq_some_iff.mp here
    obtain ⟨inside, _, opens, _⟩ := parse_eq_ok_iff.mp read
    rw [before.trimStart_append (startsUnblank_cons_iff.mp starts)] at opens
    exact unopened rest (congrArg (· :: rest) (List.cons.inj opens).1)

theorem StopsBehind.refusesBehind {front unread : Text} (stops : StopsBehind front unread)
    (starts : StartsUnblank (front ++ unread)) (before opening : Blanks) :
    RefusesBehind (before.text ++ .char '[' :: (opening.text ++ front)) unread := by
  have goesOn : ∀ {text}, StartsUnblank text →
      (IsAccepted (before.text ++ .char '[' :: (opening.text ++ front) ++ text) ↔
        ∃ paths behind, entries (front ++ text) = .ok (paths, behind) ∧
          Text.trimStart behind = []) := by
    intro text begins
    have regrouped := isAccepted_iff before opening (startsUnblank_append starts begins)
    simpa only [List.append_assoc, List.cons_append] using regrouped
  refine ⟨⟨[.char ']'], ?_⟩, stops.unblank, ?_⟩
  · obtain ⟨paths, closed⟩ := stops.closes
    exact (goesOn (startsUnblank_cons_iff.mpr (by decide))).mpr ⟨paths, [], closed, rfl⟩
  · intro c here other later accepted
    have mark : isBlank c = false := stops.unblank c here
    obtain ⟨paths, behind, listed, _⟩ := (goesOn (startsUnblank_cons_iff.mpr mark)).mp accepted
    rw [stops.decides c here other later] at listed
    cases listed

theorem refusesBehind_list (derivation : Derivation) {unread : Text}
    (starts : StartsUnblank unread) : RefusesBehind derivation.spelling unread := by
  refine ⟨⟨[], derivation.paths, ?_⟩, starts, ?_⟩
  · rw [List.append_nil, parse_spelling]
  · intro c here _ later accepted
    have mark : isBlank c = false := starts c here
    obtain ⟨before, opening, content, behind⟩ := derivation
    obtain ⟨d, text, begins, contentMark⟩ := content_starts content (behind.text ++ c :: later)
    have read := entries_of_content content (behind.text ++ c :: later)
    rw [begins] at read
    have regrouped : Derivation.spelling ⟨before, opening, content, behind⟩ ++ c :: later =
        before.text ++ .char '[' :: (opening.text ++ d :: text) := by
      rw [← begins]
      simp [Derivation.spelling]
    rw [regrouped] at accepted
    obtain ⟨paths, rest, listed, ends⟩ :=
      (isAccepted_iff before opening (startsUnblank_cons_iff.mpr contentMark)).mp accepted
    rw [read] at listed
    cases listed
    rw [behind.trimStart_append mark] at ends
    cases ends

theorem refusesBehind_of_parse {literal unread : Text} (failed : parse literal = .error unread) :
    ∃ front, literal = front ++ unread ∧ RefusesBehind front unread := by
  unfold parse at failed
  split at failed
  · next inside opens =>
      have starts := startsUnblank_trimStart inside
      split at failed
      · next stopped listed =>
          cases failed
          obtain ⟨front, split, stops⟩ := stopsBehind_of_entries listed starts
          rw [split] at starts
          refine ⟨_, ?_, stops.refusesBehind starts (.leading literal) (.leading inside)⟩
          simp only [List.append_assoc, List.cons_append]
          rw [← split, Blanks.leading_append_trimStart, ← opens, Blanks.leading_append_trimStart]
      · next paths behind listed =>
          split at failed
          · cases failed
          · next trailing =>
              cases failed
              obtain ⟨content, spelled, _⟩ := content_of_entries listed
              refine ⟨_, ?_, refusesBehind_list
                ⟨.leading literal, .leading inside, content, .leading behind⟩
                (startsUnblank_trimStart behind)⟩
              simp only [Derivation.spelling, List.append_assoc, List.cons_append]
              rw [Blanks.leading_append_trimStart, ← spelled, Blanks.leading_append_trimStart,
                ← opens, Blanks.leading_append_trimStart]
  · next unopened =>
      cases failed
      refine ⟨_, (Blanks.leading_append_trimStart literal).symm,
        refusesBehind_blanks _ (startsUnblank_trimStart literal) unopened⟩

/-!
## Places
-/

/-- The place where a literal is malformed: the text in front of it can be completed, and it can
not be completed with the character at the place, which is no blank, unless it is a quote. -/
structure IsFaultPlace (literal : Text) (offset : Nat) : Prop where
  within : offset ≤ literal.length
  viable : ∃ rest, IsAccepted (literal.take offset ++ rest)
  unblank : ∀ c ∈ literal[offset]?, isBlank c = false
  decides : ∀ c ∈ literal[offset]?, c ≠ .char '\'' →
    ∀ rest, ¬ IsAccepted (literal.take (offset + 1) ++ rest)

theorem RefusesBehind.isFaultPlace {front unread : Text} (refuses : RefusesBehind front unread) :
    IsFaultPlace (front ++ unread) front.length := by
  have here : (front ++ unread)[front.length]? = unread.head? := by
    rw [List.getElem?_append_right le_rfl, Nat.sub_self, List.head?_eq_getElem?]
  refine ⟨by simp, ?_, ?_, ?_⟩
  · rw [List.take_left]
    exact refuses.viable
  · rw [here]
    exact refuses.unblank
  · rw [here]
    intro c starts other rest
    obtain ⟨later, rfl⟩ : ∃ later, unread = c :: later := List.head?_eq_some_iff.mp starts
    have through : (front ++ c :: later).take (front.length + 1) = front ++ [c] := by
      rw [List.take_length_add_append]
      rfl
    rw [through, List.append_assoc]
    exact refuses.decides c starts other rest

/-- A path list that is refused is told with the place where it is malformed. -/
theorem malformed_list_is_located (reference : StyleReference) (fault : Fault)
    (refused : Component.stylePaths reference = .error fault) :
    ∃ offset : Nat, fault = .malformedPathList reference.literal offset ∧
      IsFaultPlace reference.literal offset := by
  unfold Component.stylePaths at refused
  split at refused
  · cases refused
  · next unread failed =>
      cases refused
      obtain ⟨front, split, refuses⟩ := refusesBehind_of_parse failed
      have offset : offsetOf reference.literal unread = front.length := by
        rw [offsetOf, split, List.length_append, Nat.add_sub_cancel]
      refine ⟨front.length, by rw [offset], ?_⟩
      rw [split]
      exact refuses.isFaultPlace

theorem malformed_list_is_located_in_sum :
    Component.stylePaths ⟨[], "[ 'a.css',\n 'b.css' + x]"⟩ =
        .error (.malformedPathList "[ 'a.css',\n 'b.css' + x]" 20) ∧
      IsFaultPlace "[ 'a.css',\n 'b.css' + x]" 20 := by
  have refused : Component.stylePaths ⟨[], "[ 'a.css',\n 'b.css' + x]"⟩ =
      .error (.malformedPathList "[ 'a.css',\n 'b.css' + x]" 20) := by decide +kernel
  obtain ⟨offset, told, place⟩ := malformed_list_is_located _ _ refused
  simp only [Fault.malformedPathList.injEq] at told
  obtain rfl : offset = 20 := by omega
  exact ⟨refused, place⟩

end Inlay.PathList
