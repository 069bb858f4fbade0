import Inlay.Component.Inline
import Mathlib.Data.List.TakeWhile

/-!
# The grammar of path lists

What the reader of path lists accepts is what the grammar derives. A derivation keeps all that
is written, so that a text is spelled by one derivation at most.
-/

set_option autoImplicit false

namespace Inlay.PathList

/-!
## Derivations
-/

@[ext]
structure Blanks where
  text : Text
  blank : ∀ c ∈ text, isBlank c = true

/-- A path that can be written between quotes. -/
@[ext]
structure QuotedPath where
  text : Text
  nonempty : text ≠ []
  plain : ∀ c ∈ text, c ≠ .char '\'' ∧ c ≠ .char '\\' ∧ c ≠ .char '\r' ∧ c ≠ .char '\n'

/-- A path behind a comma, with the blanks in front of it and behind it. -/
structure NextPath where
  gap : Blanks
  path : QuotedPath
  behind : Blanks

/-- The paths of a list that is not empty: the first path and the blanks behind it, the paths
behind commas, and a last comma with the blanks behind it. -/
structure Paths where
  path : QuotedPath
  behind : Blanks
  more : List NextPath
  comma : Option Blanks

/-- How a path list is derived: the blanks in front of it, those behind its opening bracket, its
paths, and the blanks behind its closing bracket. -/
structure Derivation where
  before : Blanks
  opening : Blanks
  content : Option Paths
  behind : Blanks

def QuotedPath.spelling (path : QuotedPath) : Text := .char '\'' :: (path.text ++ [.char '\''])

def NextPath.spelling (next : NextPath) : Text :=
  .char ',' :: (next.gap.text ++ (next.path.spelling ++ next.behind.text))

def commaSpelling : Option Blanks → Text
  | none => []
  | some gap => .char ',' :: gap.text

def Paths.spelling (paths : Paths) : Text :=
  paths.path.spelling ++
    (paths.behind.text ++ (paths.more.flatMap NextPath.spelling ++ commaSpelling paths.comma))

def Paths.texts (paths : Paths) : List Text :=
  paths.path.text :: paths.more.map fun next => next.path.text

def contentSpelling : Option Paths → Text
  | none => []
  | some paths => paths.spelling

def contentTexts : Option Paths → List Text
  | none => []
  | some paths => paths.texts

namespace Derivation

def spelling (derivation : Derivation) : Text :=
  derivation.before.text ++ .char '[' ::
    (derivation.opening.text ++
      (contentSpelling derivation.content ++ .char ']' :: derivation.behind.text))

def paths (derivation : Derivation) : List Text := contentTexts derivation.content

end Derivation

/-!
## Blanks and quoted paths
-/

namespace Blanks

theorem trimStart_append (blanks : Blanks) {c : CodePoint} (mark : isBlank c = false)
    (text : Text) : Text.trimStart (blanks.text ++ c :: text) = c :: text := by
  unfold Text.trimStart
  rw [List.dropWhile_append_of_pos blanks.blank, List.dropWhile_cons_of_neg (by simp [mark])]

theorem leadingBlanks_append (blanks : Blanks) {c : CodePoint} (mark : isBlank c = false)
    (text : Text) : Text.leadingBlanks (blanks.text ++ c :: text) = blanks.text := by
  unfold Text.leadingBlanks
  rw [List.takeWhile_append_of_pos blanks.blank, List.takeWhile_cons_of_neg (by simp [mark]),
    List.append_nil]

theorem trimStart_eq_nil (blanks : Blanks) : Text.trimStart blanks.text = [] :=
  List.dropWhile_eq_nil_iff.mpr blanks.blank

theorem cancel {first second : Blanks} {c d : CodePoint} {text other : Text}
    (same : first.text ++ c :: text = second.text ++ d :: other)
    (mark : isBlank c = false) (otherMark : isBlank d = false) :
    first = second ∧ c :: text = d :: other := by
  have front := congrArg Text.leadingBlanks same
  rw [first.leadingBlanks_append mark, second.leadingBlanks_append otherMark] at front
  have back := congrArg Text.trimStart same
  rw [first.trimStart_append mark, second.trimStart_append otherMark] at back
  exact ⟨Blanks.ext front, back⟩

def leading (text : Text) : Blanks :=
  ⟨Text.leadingBlanks text, fun _ member => List.mem_takeWhile_imp member⟩

theorem leading_append_trimStart (text : Text) :
    (leading text).text ++ Text.trimStart text = text :=
  Text.leadingBlanks_append_trimStart text

end Blanks

theorem isPathChar_iff {c : CodePoint} : isPathChar c = true ↔
    c ≠ .char '\'' ∧ c ≠ .char '\\' ∧ c ≠ .char '\r' ∧ c ≠ .char '\n' := by
  simp only [isPathChar, isLineBreak, Bool.not_eq_true', Bool.or_eq_false_iff,
    beq_eq_false_iff_ne, and_assoc]
  exact and_congr_right fun _ => and_congr_right fun _ => and_comm

theorem QuotedPath.spelling_append (path : QuotedPath) (text : Text) :
    path.spelling ++ text = .char '\'' :: (path.text ++ .char '\'' :: text) := by
  simp [spelling]

theorem NextPath.spelling_append (next : NextPath) (text : Text) :
    next.spelling ++ text =
      .char ',' :: (next.gap.text ++ (next.path.spelling ++ (next.behind.text ++ text))) := by
  simp [spelling]

theorem path?_spelling_append (path : QuotedPath) (rest : Text) :
    path? (path.spelling ++ rest) = some (path.text, rest) := by
  have plain : ∀ c ∈ path.text, isPathChar c = true := fun c member =>
    isPathChar_iff.mpr (path.plain c member)
  have closes : ¬ isPathChar (.char '\'') = true := fun claimed => (isPathChar_iff.mp claimed).1 rfl
  obtain ⟨c, others, starts⟩ := List.exists_cons_of_ne_nil path.nonempty
  rw [path.spelling_append]
  simp only [path?]
  rw [List.takeWhile_append_of_pos plain, List.dropWhile_append_of_pos plain,
    List.takeWhile_cons_of_neg closes, List.dropWhile_cons_of_neg closes, List.append_nil, starts]
  rfl

theorem spelling_of_path? {text path rest : Text} (read : path? text = some (path, rest)) :
    ∃ quoted : QuotedPath, text = quoted.spelling ++ rest ∧ quoted.text = path := by
  unfold path? at read
  split at read
  · next body =>
      split at read
      · next c taken behind running stopping =>
          cases read
          have whole := List.takeWhile_append_dropWhile (p := isPathChar) (l := body)
          rw [running, stopping] at whole
          have plain : ∀ d ∈ c :: taken, isPathChar d = true := by
            intro d member
            rw [← running] at member
            exact List.mem_takeWhile_imp member
          refine ⟨⟨c :: taken, List.cons_ne_nil _ _, fun d member =>
            isPathChar_iff.mp (plain d member)⟩, ?_, rfl⟩
          simp [QuotedPath.spelling, ← whole]
      · cases read
  · cases read

theorem QuotedPath.cancel {first second : QuotedPath} {text other : Text}
    (same : first.spelling ++ text = second.spelling ++ other) :
    first = second ∧ text = other := by
  have read := congrArg path? same
  rw [path?_spelling_append, path?_spelling_append, Option.some.injEq, Prod.mk.injEq] at read
  exact ⟨QuotedPath.ext read.1, read.2⟩

/-!
## What is read is derived
-/

/-- A path in front of the paths behind a comma, the first of which follows a gap. -/
def Paths.cons (path : QuotedPath) (behind gap : Blanks) : Option Paths → Paths
  | none => ⟨path, behind, [], some gap⟩
  | some paths => ⟨path, behind, ⟨gap, paths.path, paths.behind⟩ :: paths.more, paths.comma⟩

theorem Paths.spelling_cons (path : QuotedPath) (behind gap : Blanks)
    (content : Option Paths) :
    (Paths.cons path behind gap content).spelling =
      path.spelling ++ (behind.text ++ .char ',' :: (gap.text ++ contentSpelling content)) := by
  cases content with
  | none => simp [Paths.cons, Paths.spelling, commaSpelling, contentSpelling]
  | some paths => simp [Paths.cons, Paths.spelling, NextPath.spelling, contentSpelling]

theorem Paths.texts_cons (path : QuotedPath) (behind gap : Blanks) (content : Option Paths) :
    (Paths.cons path behind gap content).texts = path.text :: contentTexts content := by
  cases content with
  | none => rfl
  | some paths => rfl

theorem content_of_entries {text rest : Text} {paths : List Text}
    (read : entries text = .ok (paths, rest)) :
    ∃ content : Option Paths, text = contentSpelling content ++ .char ']' :: rest ∧
      contentTexts content = paths := by
  fun_induction entries text generalizing paths rest with
  | case1 text found closes =>
      cases read
      have split := Text.after?_eq_some_iff.mp closes
      exact ⟨none, split, rfl⟩
  | case2 => cases read
  | case3 text _ path behind reading found closes =>
      cases read
      obtain ⟨quoted, rfl, rfl⟩ := spelling_of_path? reading
      refine ⟨some ⟨quoted, .leading behind, [], none⟩, ?_, rfl⟩
      simp only [contentSpelling, Paths.spelling, commaSpelling, List.flatMap_nil,
        List.append_nil, List.append_assoc]
      rw [← closes, Blanks.leading_append_trimStart]
  | case4 => cases read
  | case5 text _ path behind reading next separates found rest readMore ih =>
      cases read
      obtain ⟨quoted, rfl, rfl⟩ := spelling_of_path? reading
      obtain ⟨content, spelled, rfl⟩ := ih readMore
      refine ⟨some (.cons quoted (.leading behind) (.leading next) content), ?_, ?_⟩
      · rw [contentSpelling, Paths.spelling_cons]
        simp only [List.append_assoc, List.cons_append]
        rw [← spelled, Blanks.leading_append_trimStart, ← separates,
          Blanks.leading_append_trimStart]
      · exact Paths.texts_cons _ _ _ content
  | case6 => cases read

theorem parse_eq_ok_iff {literal : Text} {paths : List Text} :
    parse literal = .ok paths ↔ ∃ inside behind, Text.trimStart literal = .char '[' :: inside ∧
      entries (Text.trimStart inside) = .ok (paths, behind) ∧ Text.trimStart behind = [] := by
  constructor
  · intro read
    unfold parse at read
    split at read
    · next inside opens =>
        split at read
        · cases read
        · next found behind listed =>
            split at read
            · next ends =>
                cases read
                exact ⟨inside, behind, opens, listed, ends⟩
            · cases read
    · cases read
  · rintro ⟨inside, behind, opens, listed, ends⟩
    unfold parse
    split
    · next found opened =>
        rw [opens] at opened
        cases opened
        rw [listed]
        dsimp only
        rw [ends]
    · next unopened => exact (unopened inside opens).elim

theorem derivation_of_parse {literal : Text} {paths : List Text}
    (read : parse literal = .ok paths) :
    ∃ derivation : Derivation, derivation.spelling = literal ∧ derivation.paths = paths := by
  obtain ⟨inside, behind, opens, listed, ends⟩ := parse_eq_ok_iff.mp read
  obtain ⟨content, spelled, rfl⟩ := content_of_entries listed
  have trailing := Blanks.leading_append_trimStart behind
  rw [ends, List.append_nil] at trailing
  refine ⟨⟨.leading literal, .leading inside, content, .leading behind⟩, ?_, rfl⟩
  unfold Derivation.spelling
  dsimp only
  rw [trailing, ← spelled, Blanks.leading_append_trimStart, ← opens,
    Blanks.leading_append_trimStart]

/-!
## What is derived is read
-/

theorem QuotedPath.after?_bracket (path : QuotedPath) (text : Text) :
    Text.after? [.char ']'] (path.spelling ++ text) = none :=
  if_neg (by decide)

theorem entries_bracket (rest : Text) : entries (.char ']' :: rest) = .ok ([], rest) := by
  rw [entries]
  rfl

theorem entries_spelling_append (path : QuotedPath) (behind : Text) :
    entries (path.spelling ++ behind) =
      match Text.trimStart behind with
      | .char ']' :: rest => .ok ([path.text], rest)
      | .char ',' :: next =>
          (entries (Text.trimStart next)).map fun (paths, rest) => (path.text :: paths, rest)
      | unread => .error unread := by
  rw [entries, path.after?_bracket]
  dsimp only
  split
  · next refused =>
      rw [path?_spelling_append] at refused
      cases refused
  · next reading =>
      rw [path?_spelling_append] at reading
      cases reading
      split
      · next closes =>
          rw [closes]
          rfl
      · next next separates =>
          rw [separates]
          change _ = (entries (Text.trimStart next)).map _
          cases entries (Text.trimStart next) <;> rfl
      · next noBracket noComma =>
          split
          · next closes => exact (noBracket _ closes).elim
          · next separates => exact (noComma _ separates).elim
          · rfl

theorem entries_last (path : QuotedPath) (behind : Blanks) (rest : Text) :
    entries (path.spelling ++ (behind.text ++ .char ']' :: rest)) = .ok ([path.text], rest) := by
  rw [entries_spelling_append, behind.trimStart_append (by decide)]
  rfl

theorem entries_comma (path : QuotedPath) (behind gap : Blanks) {c : CodePoint}
    (mark : isBlank c = false) (text : Text) :
    entries (path.spelling ++ (behind.text ++ .char ',' :: (gap.text ++ c :: text))) =
      (entries (c :: text)).map fun (paths, rest) => (path.text :: paths, rest) := by
  rw [entries_spelling_append, behind.trimStart_append (by decide)]
  change (entries (Text.trimStart (gap.text ++ c :: text))).map _ = _
  rw [gap.trimStart_append mark]

/-- Paths behind a path: the closing bracket, the last comma and the next path are told apart by
what stands behind the blanks. -/
theorem entries_of_paths (path : QuotedPath) (behind : Blanks) (more : List NextPath)
    (comma : Option Blanks) (rest : Text) :
    entries (path.spelling ++ (behind.text ++
        (more.flatMap NextPath.spelling ++ (commaSpelling comma ++ .char ']' :: rest)))) =
      .ok (path.text :: more.map fun next => next.path.text, rest) := by
  induction more generalizing path behind with
  | nil =>
      cases comma with
      | none => exact entries_last path behind rest
      | some gap =>
          exact (entries_comma path behind gap (c := .char ']') (by decide) rest).trans
            (by rw [entries_bracket]; rfl)
  | cons next more ih =>
      rw [List.flatMap_cons, List.append_assoc, next.spelling_append, next.path.spelling_append,
        entries_comma path behind next.gap (by decide), ← next.path.spelling_append, ih]
      rfl

theorem entries_of_content (content : Option Paths) (rest : Text) :
    entries (contentSpelling content ++ .char ']' :: rest) = .ok (contentTexts content, rest) := by
  cases content with
  | none => exact entries_bracket rest
  | some paths =>
      simp only [contentSpelling, Paths.spelling, List.append_assoc]
      exact entries_of_paths paths.path paths.behind paths.more paths.comma rest

theorem content_starts (content : Option Paths) (rest : Text) :
    ∃ c text, contentSpelling content ++ .char ']' :: rest = c :: text ∧ isBlank c = false := by
  cases content with
  | none => exact ⟨.char ']', rest, rfl, by decide⟩
  | some paths => exact ⟨.char '\'', _, rfl, by decide⟩

theorem parse_spelling (derivation : Derivation) :
    parse derivation.spelling = .ok derivation.paths := by
  obtain ⟨before, opening, content, behind⟩ := derivation
  obtain ⟨c, text, starts, mark⟩ := content_starts content behind.text
  refine parse_eq_ok_iff.mpr ⟨_, behind.text, before.trimStart_append (by decide) _, ?_,
    behind.trimStart_eq_nil⟩
  have read := entries_of_content content behind.text
  dsimp only
  rw [starts] at read ⊢
  rwa [opening.trimStart_append mark]

/-!
## A text has one derivation
-/

theorem comma_ne_next (comma : Option Blanks) (rest : Text) (next : NextPath) (text : Text) :
    commaSpelling comma ++ .char ']' :: rest ≠ next.spelling ++ text := by
  intro same
  rw [next.spelling_append, next.path.spelling_append] at same
  cases comma with
  | none => exact absurd (List.cons.inj same).1 (by decide)
  | some gap =>
      have marks := (Blanks.cancel (List.cons.inj same).2 (by decide) (by decide)).2
      exact absurd (List.cons.inj marks).1 (by decide)

theorem comma_cancel {first second : Option Blanks} {rest other : Text}
    (same : commaSpelling first ++ .char ']' :: rest =
      commaSpelling second ++ .char ']' :: other) : first = second ∧ rest = other := by
  cases first with
  | none =>
      cases second with
      | none => exact ⟨rfl, (List.cons.inj same).2⟩
      | some gap => exact absurd (List.cons.inj same).1 (by decide)
  | some gap =>
      cases second with
      | none => exact absurd (List.cons.inj same).1 (by decide)
      | some gap' =>
          obtain ⟨rfl, closes⟩ :=
            Blanks.cancel (List.cons.inj same).2 (by decide) (by decide)
          exact ⟨rfl, (List.cons.inj closes).2⟩

theorem NextPath.cancel {first second : NextPath} {c d : CodePoint} {text other : Text}
    (same : first.spelling ++ c :: text = second.spelling ++ d :: other)
    (mark : isBlank c = false) (otherMark : isBlank d = false) :
    first = second ∧ c :: text = d :: other := by
  obtain ⟨gap, path, behind⟩ := first
  obtain ⟨gap', path', behind'⟩ := second
  rw [spelling_append, spelling_append, QuotedPath.spelling_append,
    QuotedPath.spelling_append] at same
  obtain ⟨rfl, quoted⟩ := Blanks.cancel (List.cons.inj same).2 (by decide) (by decide)
  rw [← QuotedPath.spelling_append, ← QuotedPath.spelling_append] at quoted
  obtain ⟨rfl, blanks⟩ := QuotedPath.cancel quoted
  obtain ⟨rfl, remain⟩ := Blanks.cancel blanks mark otherMark
  exact ⟨rfl, remain⟩

theorem tail_starts (more : List NextPath) (comma : Option Blanks) (rest : Text) :
    ∃ c text, more.flatMap NextPath.spelling ++ (commaSpelling comma ++ .char ']' :: rest) =
      c :: text ∧ isBlank c = false := by
  cases more with
  | nil =>
      cases comma with
      | none => exact ⟨.char ']', _, rfl, by decide⟩
      | some gap => exact ⟨.char ',', _, rfl, by decide⟩
  | cons next more => exact ⟨.char ',', _, rfl, by decide⟩

/-- A comma stands in front of the next path or is the last one; what stands behind its blanks
tells which. -/
theorem tail_cancel {more others : List NextPath} {comma comma' : Option Blanks}
    {rest rest' : Text}
    (same : more.flatMap NextPath.spelling ++ (commaSpelling comma ++ .char ']' :: rest) =
      others.flatMap NextPath.spelling ++ (commaSpelling comma' ++ .char ']' :: rest')) :
    more = others ∧ comma = comma' ∧ rest = rest' := by
  induction more generalizing others with
  | nil =>
      cases others with
      | nil => exact ⟨rfl, comma_cancel same⟩
      | cons next others =>
          rw [List.flatMap_cons, List.append_assoc] at same
          exact absurd same (comma_ne_next _ _ _ _)
  | cons next more ih =>
      rw [List.flatMap_cons, List.append_assoc] at same
      cases others with
      | nil => exact absurd same.symm (comma_ne_next _ _ _ _)
      | cons next' others =>
          rw [List.flatMap_cons, List.append_assoc] at same
          obtain ⟨c, text, starts, mark⟩ := tail_starts more comma rest
          obtain ⟨d, other, starts', mark'⟩ := tail_starts others comma' rest'
          rw [starts, starts'] at same
          obtain ⟨rfl, remain⟩ := NextPath.cancel same mark mark'
          rw [← starts, ← starts'] at remain
          obtain ⟨rfl, rfl, rfl⟩ := ih remain
          exact ⟨rfl, rfl, rfl⟩

theorem content_cancel {first second : Option Paths} {rest other : Text}
    (same : contentSpelling first ++ .char ']' :: rest =
      contentSpelling second ++ .char ']' :: other) : first = second ∧ rest = other := by
  cases first with
  | none =>
      cases second with
      | none => exact ⟨rfl, (List.cons.inj same).2⟩
      | some paths => exact absurd (List.cons.inj same).1 (by decide)
  | some paths =>
      cases second with
      | none => exact absurd (List.cons.inj same).1 (by decide)
      | some paths' =>
          obtain ⟨path, behind, more, comma⟩ := paths
          obtain ⟨path', behind', more', comma'⟩ := paths'
          simp only [contentSpelling, Paths.spelling, List.append_assoc] at same
          obtain ⟨rfl, blanks⟩ := QuotedPath.cancel same
          obtain ⟨c, text, starts, mark⟩ := tail_starts more comma rest
          obtain ⟨d, text', starts', mark'⟩ := tail_starts more' comma' other
          rw [starts, starts'] at blanks
          obtain ⟨rfl, tail⟩ := Blanks.cancel blanks mark mark'
          rw [← starts, ← starts'] at tail
          obtain ⟨rfl, rfl, rfl⟩ := tail_cancel tail
          exact ⟨rfl, rfl⟩

theorem Derivation.eq_of_spelling_eq {first second : Derivation}
    (same : first.spelling = second.spelling) : first = second := by
  obtain ⟨before, opening, content, behind⟩ := first
  obtain ⟨before', opening', content', behind'⟩ := second
  obtain ⟨rfl, brackets⟩ := Blanks.cancel same (by decide) (by decide)
  have inside := (List.cons.inj brackets).2
  obtain ⟨c, text, starts, mark⟩ := content_starts content behind.text
  obtain ⟨d, text', starts', mark'⟩ := content_starts content' behind'.text
  dsimp only at inside
  rw [starts, starts'] at inside
  obtain ⟨rfl, listed⟩ := Blanks.cancel inside mark mark'
  rw [← starts, ← starts'] at listed
  obtain ⟨rfl, trailing⟩ := content_cancel listed
  obtain rfl := Blanks.ext trailing
  rfl

/-- The paths of a style reference are those of the derivation of its literal. A literal that
nothing derives is malformed, and none has two derivations. -/
theorem stylePaths_grammar (reference : StyleReference) :
    (∀ paths, Component.stylePaths reference = .ok paths ↔
      ∃ derivation : Derivation,
        derivation.spelling = reference.literal ∧ derivation.paths = paths) ∧
    ((∀ derivation : Derivation, derivation.spelling ≠ reference.literal) →
      ∃ offset, Component.stylePaths reference =
        .error (.malformedPathList reference.literal offset)) ∧
    (∀ first second : Derivation, first.spelling = reference.literal →
      second.spelling = reference.literal → first = second) := by
  refine ⟨fun paths => ⟨fun read => ?_, ?_⟩, fun underivable => ?_, ?_⟩
  · unfold Component.stylePaths at read
    split at read
    · next found parsed =>
        cases read
        exact derivation_of_parse parsed
    · cases read
  · rintro ⟨derivation, spelled, rfl⟩
    unfold Component.stylePaths
    rw [← spelled, parse_spelling]
  · unfold Component.stylePaths
    split
    · next found parsed =>
        obtain ⟨derivation, spelled, _⟩ := derivation_of_parse parsed
        exact absurd spelled (underivable derivation)
    · exact ⟨_, rfl⟩
  · intro first second spelled spelledToo
    exact Derivation.eq_of_spelling_eq (spelled.trans spelledToo.symm)

end Inlay.PathList
