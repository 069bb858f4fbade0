import Inlay.Proofs.Component.OwnReferences
import Inlay.Proofs.Text.Occurrences

/-!
# The end of a style list

The scan for style references ends a list at the first closing bracket behind its opening one.
The reader of path lists takes a bracket between quotes for a part of a path. The two agree on
where a list ends exactly if no path of it has a closing bracket.
-/

set_option autoImplicit false

namespace Inlay

namespace PathList

theorem Blanks.not_mem (blanks : Blanks) {c : CodePoint} (mark : isBlank c = false) :
    c ∉ blanks.text := by
  intro member
  have blank := blanks.blank c member
  rw [mark] at blank
  cases blank

/-- Of what is written between the brackets of a list, only a path can have a closing bracket. -/
theorem bracket_mem_contentSpelling {content : Option Paths} :
    .char ']' ∈ contentSpelling content ↔ ∃ path ∈ contentTexts content, .char ']' ∈ path := by
  have unbracketed (blanks : Blanks) : .char ']' ∉ blanks.text := blanks.not_mem (by decide)
  have quoted (path : QuotedPath) :
      .char ']' ∈ path.spelling ↔ .char ']' ∈ path.text := by
    simp [QuotedPath.spelling]
  have next (path : NextPath) : .char ']' ∈ path.spelling ↔ .char ']' ∈ path.path.text := by
    simp [NextPath.spelling, unbracketed, quoted]
  cases content with
  | none => simp [contentSpelling, contentTexts]
  | some paths =>
      have comma : .char ']' ∉ commaSpelling paths.comma := by
        cases paths.comma with
        | none => exact List.not_mem_nil
        | some gap => simp [commaSpelling, unbracketed]
      simp [contentSpelling, contentTexts, Paths.spelling, Paths.texts, unbracketed, quoted, next,
        comma]

/-- How a list that has nothing in front of its brackets and nothing behind them is derived. -/
theorem brackets_of_parse {literal : Text} {paths : List Text}
    (opens : literal.head? = some (.char '[')) (closes : literal.getLast? = some (.char ']'))
    (read : parse literal = .ok paths) :
    ∃ (opening : Blanks) (content : Option Paths),
      literal = .char '[' :: (opening.text ++ (contentSpelling content ++ [.char ']'])) ∧
        contentTexts content = paths := by
  obtain ⟨⟨before, opening, content, behind⟩, rfl, rfl⟩ := derivation_of_parse read
  have inFront : before.text = [] := by
    cases front : before.text with
    | nil => rfl
    | cons c others =>
        simp only [Derivation.spelling, front, List.cons_append, List.head?_cons,
          Option.some.injEq] at opens
        subst opens
        have member : .char '[' ∈ before.text := by
          rw [front]
          exact .head _
        exact absurd member (before.not_mem (by decide))
  have after : behind.text = [] := by
    cases back : behind.text.getLast? with
    | none => exact List.getLast?_eq_none_iff.mp back
    | some c =>
        simp only [Derivation.spelling, List.getLast?_append, List.getLast?_cons, back,
          Option.getD_some, Option.some_or, Option.some.injEq] at closes
        subst closes
        exact absurd (List.mem_of_getLast? back) (behind.not_mem (by decide))
  refine ⟨opening, content, ?_, rfl⟩
  simp [Derivation.spelling, inFront, after]

/-- A list that is cut off at a bracket of a path cannot be read. -/
theorem parse_of_cut {items rest : Text} {paths : List Text}
    (read : parse (.char '[' :: (items ++ .char ']' :: rest)) = .ok paths)
    (closes : rest.getLast? = some (.char ']')) :
    ∃ unread, parse (.char '[' :: (items ++ [.char ']'])) = .error unread := by
  cases early : parse (.char '[' :: (items ++ [.char ']'])) with
  | error unread => exact ⟨unread, rfl⟩
  | ok others =>
      have wholeEnds : (.char '[' :: (items ++ .char ']' :: rest) : Text).getLast? =
          some (.char ']') := by
        simp [List.getLast?_cons, List.getLast?_append, closes]
      have shortEnds : (.char '[' :: (items ++ [.char ']']) : Text).getLast? =
          some (.char ']') := by
        simp [List.getLast?_cons, List.getLast?_append]
      obtain ⟨opening, content, whole, -⟩ := brackets_of_parse rfl wholeEnds read
      obtain ⟨opening', content', short, -⟩ := brackets_of_parse rfl shortEnds early
      have longer : opening.text ++ (contentSpelling content ++ [.char ']']) =
          opening'.text ++ (contentSpelling content' ++ .char ']' :: rest) := by
        have continued := congrArg (· ++ rest) (List.cons.inj short).2
        have split := (List.cons.inj whole).2
        simp only [List.append_assoc, List.cons_append, List.nil_append] at continued
        rw [← split, continued]
      obtain ⟨c, text, starts, mark⟩ := content_starts content []
      obtain ⟨d, text', starts', mark'⟩ := content_starts content' rest
      rw [starts, starts'] at longer
      have listed := (Blanks.cancel longer mark mark').2
      rw [← starts, ← starts'] at listed
      rw [← (content_cancel listed).2] at closes
      cases closes

end PathList

namespace Component

variable {setting : Setting} {resolve : Text → Path} {reference : StyleReference}
  {before behind : Text} {paths : List Text}

/-- The style reference that has some items between its brackets. -/
def bracketed (gap : PathList.Blanks) (items : Text) : StyleReference :=
  ⟨gap.text, .char '[' :: (items ++ [.char ']'])⟩

theorem bracketed_eq (gap : PathList.Blanks) (items : Text) :
    bracketed gap items = ⟨gap.text, "[" ++ items ++ "]"⟩ := by
  simp [bracketed, Text.ofString]

theorem spelling_bracketed_append (gap : PathList.Blanks) (items rest : Text) :
    spelling (bracketed gap items) ++ rest =
      StyleReference.keyword ++ (gap.text ++ .char '[' :: (items ++ .char ']' :: rest)) := by
  simp [spelling, bracketed]

theorem keyword_prefix_spelling (reference : StyleReference) :
    StyleReference.keyword <+: spelling reference :=
  List.prefix_append _ _

theorem search?_at_list (absent : ¬ StyleReference.keyword <:+: before) (gap : PathList.Blanks)
    {items : Text} (inside : .char ']' ∉ items) (rest : Text) :
    StyleReference.scan.search? (before ++ (spelling (bracketed gap items) ++ rest)) =
      some (before, bracketed gap items, rest) := by
  rw [spelling_bracketed_append, bracketed_eq]
  exact Recognizer.search?_at_keyword keyword_prefix_spelling (by decide) absent
    (StyleReference.read?_bracketed gap inside rest)

theorem inlineStyles_at_accepted (setting : Setting) (race : Race) (resolve : Text → Path)
    (found : StyleReference.scan.search? (before ++ (spelling reference ++ behind)) =
      some (before, reference, behind))
    (read : PathList.parse reference.literal = .ok paths) :
    inlineStyles setting race resolve (before ++ (spelling reference ++ behind)) =
      (loadStyles setting race resolve paths >>= fun bodies =>
        return before ++ stylesProperty bodies ++ behind) := by
  rw [inlineStyles, found]
  dsimp only
  rw [stylePaths, read]
  rfl

theorem inlineStyles_at_refused (setting : Setting) (race : Race) (resolve : Text → Path)
    {content : Text} (found : StyleReference.scan.search? content = some (before, reference, behind))
    {unread : Text} (refused : PathList.parse reference.literal = .error unread) :
    inlineStyles setting race resolve content =
      .fail (.malformedPathList reference.literal
        (PathList.offsetOf reference.literal unread)) := by
  rw [inlineStyles, found]
  dsimp only
  rw [stylePaths, refused]
  rfl

/-- The scan for style references and the reader of path lists agree on where a list ends exactly
if no path of it has a closing bracket. Otherwise the list is cut off at the first such bracket,
and what is left of it cannot be read. -/
theorem inlineStyles_at_list (setting : Setting) (race : Race) (resolve : Text → Path)
    (reference : StyleReference) (before behind : Text)
    (absent : ¬ StyleReference.keyword <:+: before) (blank : ∀ c ∈ reference.gap, isBlank c = true)
    (opens : reference.literal.head? = some (.char '['))
    (closes : reference.literal.getLast? = some (.char ']'))
    (read : PathList.parse reference.literal = .ok paths) :
    ((∀ path ∈ paths, .char ']' ∉ path) →
      inlineStyles setting race resolve (before ++ (spelling reference ++ behind)) =
          (loadStyles setting race resolve paths >>= fun bodies =>
            return before ++ stylesProperty bodies ++ behind) ∧
        ∀ files bodies, List.Forall₂
            (fun path body => (loadStyle setting resolve path).result files = .ok body)
            paths bodies →
          (inlineStyles setting race resolve (before ++ (spelling reference ++ behind))).result
            files = .ok (before ++ stylesProperty bodies ++ behind)) ∧
    ((∃ path ∈ paths, .char ']' ∈ path) → ∃ items rest offset,
      reference.literal = .char '[' :: (items ++ .char ']' :: rest) ∧ .char ']' ∉ items ∧
        inlineStyles setting race resolve (before ++ (spelling reference ++ behind)) =
          .fail (.malformedPathList (.char '[' :: (items ++ [.char ']'])) offset)) := by
  obtain ⟨opening, content, written, listed⟩ := PathList.brackets_of_parse opens closes read
  let gap : PathList.Blanks := ⟨reference.gap, blank⟩
  have unbracketed : .char ']' ∉ opening.text := opening.not_mem (by decide)
  constructor
  · intro plain
    have inside : .char ']' ∉ opening.text ++ PathList.contentSpelling content := by
      rw [List.mem_append, PathList.bracket_mem_contentSpelling, listed]
      rintro (member | ⟨path, member, bracket⟩)
      · exact unbracketed member
      · exact plain path member bracket
    have same : bracketed gap (opening.text ++ PathList.contentSpelling content) = reference := by
      rw [bracketed, List.append_assoc, ← written]
    have found := search?_at_list absent gap inside behind
    rw [same] at found
    have whole := inlineStyles_at_accepted setting race resolve found read
    refine ⟨whole, fun files bodies loaded => ?_⟩
    rw [whole, Inquiry.result_bind, result_loadStyles_eq_ok_iff.mpr loaded]
    rfl
  · rintro ⟨path, member, bracket⟩
    rw [← listed] at member
    have present : .char ']' ∈ opening.text ++ PathList.contentSpelling content :=
      List.mem_append_right _ (PathList.bracket_mem_contentSpelling.mpr ⟨path, member, bracket⟩)
    obtain ⟨items, others, split, inside⟩ := List.eq_append_cons_of_mem present
    have longer : reference.literal =
        .char '[' :: (items ++ .char ']' :: (others ++ [.char ']'])) := by
      rw [written, ← List.append_assoc, split]
      simp
    rw [longer] at read
    obtain ⟨unread, refused⟩ := PathList.parse_of_cut read (by simp)
    have found := search?_at_list absent gap inside (others ++ .char ']' :: behind)
    have same : spelling (bracketed gap items) ++ (others ++ .char ']' :: behind) =
        spelling reference ++ behind := by
      rw [spelling_bracketed_append, spelling_append, longer]
      simp [gap]
    rw [same] at found
    exact ⟨items, _, _, longer, inside, inlineStyles_at_refused setting race resolve found refused⟩

theorem inlineStyles_at_list_of_card :
    PathList.parse "['b.css', 'b.css']" = .ok ["b.css", "b.css"] ∧
      (inlineStyles plainSetting Race.inOrder Path.ofText
        ("x, " ++ (spelling (⟨" ", "['b.css', 'b.css']"⟩ : StyleReference) ++ ", y"))).result
          cardProject = .ok "x, styles: ['p,\np'], y" := by
  have read : PathList.parse "['b.css', 'b.css']" = .ok ["b.css", "b.css"] := by decide +kernel
  have agrees := inlineStyles_at_list plainSetting Race.inOrder Path.ofText
    ⟨" ", "['b.css', 'b.css']"⟩ "x, " ", y" (by decide +kernel) (by decide +kernel)
    (by decide +kernel) (by decide +kernel) read
  have loads : (loadStyle plainSetting Path.ofText "b.css").result cardProject = .ok "p" := by
    decide +kernel
  have inlined := (agrees.1 (by decide +kernel)).2 cardProject ["p", "p"]
    (.cons loads (.cons loads .nil))
  refine ⟨read, inlined.trans ?_⟩
  decide +kernel

def bracketProject : FileSystem where
  entries := [(["a].css"], .file (Utf8.encode "p"))]
  workingDirectory := []

theorem listed_styles_may_be_cut_off :
    ¬ ∀ (setting : Setting) (race : Race) (files : FileSystem) (resolve : Text → Path)
      (reference : StyleReference) (before behind : Text) (paths bodies : List Text),
      ¬ StyleReference.keyword <:+: before → (∀ c ∈ reference.gap, isBlank c = true) →
      reference.literal.head? = some (.char '[') →
      reference.literal.getLast? = some (.char ']') →
      PathList.parse reference.literal = .ok paths →
      List.Forall₂ (fun path body => (loadStyle setting resolve path).result files = .ok body)
        paths bodies →
      (inlineStyles setting race resolve (before ++ (spelling reference ++ behind))).result files =
        .ok (before ++ stylesProperty bodies ++ behind) := by
  intro inlines
  have loads : (loadStyle plainSetting Path.ofText "a].css").result bracketProject = .ok "p" := by
    decide +kernel
  have inlined := inlines plainSetting Race.inOrder bracketProject Path.ofText
    ⟨" ", "['a].css']"⟩ [] [] ["a].css"] ["p"] (by decide +kernel) (by decide +kernel)
    (by decide +kernel) (by decide +kernel) (by decide +kernel) (.cons loads .nil)
  revert inlined
  decide +kernel

end Component

end Inlay
