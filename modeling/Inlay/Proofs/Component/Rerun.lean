import Inlay.Proofs.Component.OwnReferences
import Inlay.Proofs.Component.Revision
import Inlay.Proofs.Encoding.RoundTrip
import Inlay.Proofs.Files.Changes
import Inlay.Proofs.Text.Occurrences

/-!
# Inlining again

Where every keyword of the source begins a reference that is inlined, and no inlined text holds a
keyword, no keyword is left in what inlining gives: an occurrence would have to go through the
quotes around an inlined text, which no keyword has, or to stand among characters of the source.
Inlining again then changes nothing.
-/

set_option autoImplicit false

namespace Inlay.Component

variable {setting : Setting} {race : Race} {files : FileSystem} {resolve : Text → Path}
  {source text content before behind keyword : Text} {bodies : List Text} {path : Path}

/-! ## What is used and left behind -/

def keywords : List Text := [TemplateReference.keyword, StyleReference.keyword]

def HasNoKeyword (text : Text) : Prop := ∀ keyword ∈ keywords, ¬ keyword <:+: text

instance (text : Text) : Decidable (HasNoKeyword text) :=
  inferInstanceAs (Decidable (∀ keyword ∈ keywords, _))

/-- The literal bodies of the templates that the source refers to. -/
def templateBodies (files : FileSystem) (resolve : Text → Path) (charset : Charset)
    (source : Text) : List Text :=
  (tokensOf (TemplateReference.scan.pieces source)).filterMap fun reference =>
    ((Inquiry.readResource charset (resolve reference.path)).result files).toOption.map
      literalBody

/-- The bodies of the styles that the first style reference of a text lists. -/
def styleBodies (setting : Setting) (files : FileSystem) (resolve : Text → Path)
    (content : Text) : List Text :=
  match StyleReference.scan.search? content with
  | none => []
  | some (_, reference, _) =>
      match stylePaths reference with
      | .error _ => []
      | .ok paths =>
          ((Inquiry.forEach (loadStyle setting resolve) paths).result files).toOption.getD []

/-- Every template keyword of the source begins a reference, it has one style keyword at most, and
the inlined texts have no keyword. -/
structure LeavesNoKeyword (setting : Setting) (files : FileSystem) (resolve : Text → Path)
    (source : Text) : Prop where
  matched : ∀ rest ∈ placesOf TemplateReference.keyword source,
    (TemplateReference.scan.read? rest).isSome = true
  once : (placesOf StyleReference.keyword source).length ≤ 1
  templates : ∀ body ∈ templateBodies files resolve setting.charset source,
    HasNoKeyword body
  styles : ∀ body ∈ styleBodies setting files resolve
      (templated files resolve setting.charset source), HasNoKeyword body

instance (setting : Setting) (files : FileSystem) (resolve : Text → Path) (source : Text) :
    Decidable (LeavesNoKeyword setting files resolve source) :=
  decidable_of_iff (_ ∧ _ ∧ _ ∧ _)
    ⟨fun ⟨matched, once, templates, styles⟩ => ⟨matched, once, templates, styles⟩,
      fun leaves => ⟨leaves.matched, leaves.once, leaves.templates, leaves.styles⟩⟩

theorem styleBodies_of_loadsStyles {reference : StyleReference}
    (found : StyleReference.scan.search? content = some (before, reference, behind))
    (loaded : LoadsStyles setting files resolve reference bodies) :
    styleBodies setting files resolve content = bodies := by
  obtain ⟨paths, listed, each⟩ := loaded
  have all := Inquiry.result_forEach_eq_ok_iff.mpr each
  rw [styleBodies, found]
  dsimp only
  rw [listed]
  dsimp only
  rw [all]
  rfl

/-! ## Inlined texts keep the keywords apart -/

theorem keyword_ne_nil : ∀ keyword ∈ keywords, keyword ≠ [] := by decide

def marks : Text := ['"', '\'', ']', ',', '\n']

theorem mark_not_mem : ∀ keyword ∈ keywords, ∀ mark ∈ marks, mark ∉ keyword := by decide

theorem openings_cannotEnd : ∀ keyword ∈ keywords,
    CannotEnd keyword "template: " ∧ CannotEnd keyword "styles: [" := by decide +kernel

theorem keepsApart_templateProperty (member : keyword ∈ keywords)
    (clean : ¬ keyword <:+: literalBody content) :
    KeepsApart keyword (templateProperty content) := by
  have quote : .char '"' ∉ keyword := mark_not_mem keyword member _ (by decide)
  have apart : KeepsApart keyword
      (Text.ofString "template: " ++ .char '"' :: (literalBody content ++ [.char '"'])) :=
    keepsApart_of_marks (keyword_ne_nil keyword member) (openings_cannotEnd keyword member).1
      quote quote (fun _ none => absurd none List.not_mem_nil) clean
  have written : templateProperty content =
      Text.ofString "template: " ++ .char '"' :: (literalBody content ++ [.char '"']) := by
    simp [templateProperty, Text.ofString]
  rw [written]
  exact apart

theorem keepsApart_stylesProperty (member : keyword ∈ keywords)
    (clean : ∀ body ∈ bodies, ¬ keyword <:+: body) :
    KeepsApart keyword (stylesProperty bodies) := by
  have absent : ∀ mark ∈ marks, mark ∉ keyword := mark_not_mem keyword member
  have joined : ¬ keyword <:+: Text.joinWith ",\n" bodies := by
    intro occurs
    have separated : ∀ c ∈ (",\n" : Text), c ∉ keyword := fun c part =>
      absent c ((by decide : ∀ c ∈ (",\n" : Text), c ∈ marks) c part)
    obtain ⟨body, member, inside⟩ :=
      occurs_joinWith (keyword_ne_nil keyword member) (by decide) separated occurs
    exact clean body member inside
  have apart : KeepsApart keyword (Text.ofString "styles: [" ++
      .char '\'' :: (Text.joinWith ",\n" bodies ++ .char '\'' :: [.char ']'])) :=
    keepsApart_of_marks (keyword_ne_nil keyword member) (openings_cannotEnd keyword member).2
      (absent _ (by decide)) (absent _ (by decide))
      (fun c part => absent c (by rw [List.mem_singleton.mp part]; decide)) joined
  have written : stylesProperty bodies = Text.ofString "styles: [" ++
      .char '\'' :: (Text.joinWith ",\n" bodies ++ .char '\'' :: [.char ']']) := by
    simp [stylesProperty, Text.ofString]
  rw [written]
  exact apart

/-! ## No keyword is left -/

theorem occurs_of_occurs_around {inlined : Text} (apart : KeepsApart keyword inlined)
    (occurs : keyword <:+: before ++ inlined ++ behind) :
    keyword <:+: before ∨ keyword <:+: behind := by
  obtain ⟨ahead, rest, split⟩ := occurs_iff.mp occurs
  rw [List.append_assoc] at split
  rcases apart split with ⟨rest, within⟩ | ⟨more, -, within⟩
  · exact .inl (occurs_iff.mpr ⟨_, _, within⟩)
  · exact .inr (occurs_iff.mpr ⟨_, _, within⟩)

theorem LeavesNoKeyword.keepsApart_templateImage
    (leaves : LeavesNoKeyword setting files resolve source)
    (read : TemplatesAreRead files resolve setting.charset source)
    (member : keyword ∈ keywords) :
    ∀ reference ∈ tokensOf (TemplateReference.scan.pieces source),
      KeepsApart keyword (templateImage files resolve setting.charset reference) := by
  intro reference used
  obtain ⟨content, contentRead⟩ := read reference used
  have body : literalBody content ∈
      templateBodies files resolve setting.charset source := by
    refine List.mem_filterMap.mpr ⟨reference, used, ?_⟩
    rw [contentRead]
    rfl
  have clean := leaves.templates _ body keyword member
  rw [templateImage, contentRead]
  exact keepsApart_templateProperty member clean

/-- A template keyword among the characters that the scan stepped over would begin no reference. -/
theorem LeavesNoKeyword.templated_has_no_template
    (leaves : LeavesNoKeyword setting files resolve source)
    (read : TemplatesAreRead files resolve setting.charset source) :
    ¬ TemplateReference.keyword <:+:
      templated files resolve setting.charset source := by
  intro occurs
  obtain ⟨before, behind, split⟩ := occurs_iff.mp occurs
  obtain ⟨ahead, rest, -, -, place, unread⟩ := Recognizer.pieces_of_occurrence
    TemplateReference.keyword_ne_nil (leaves.keepsApart_templateImage read (.head _)) split
  have begins := leaves.matched _ (mem_placesOf.mpr ⟨_, _, place, rfl⟩)
  rw [unread] at begins
  cases begins

theorem LeavesNoKeyword.eq_of_style_occurrences {before' behind' : Text}
    (leaves : LeavesNoKeyword setting files resolve source)
    (read : TemplatesAreRead files resolve setting.charset source)
    (first : templated files resolve setting.charset source =
      before ++ (StyleReference.keyword ++ behind))
    (second : templated files resolve setting.charset source =
      before' ++ (StyleReference.keyword ++ behind')) : before = before' :=
  Recognizer.eq_of_occurrences StyleReference.keyword_ne_nil TemplateReference.spelling_ne_nil
    (leaves.keepsApart_templateImage read (.tail _ (.head _))) leaves.once first second

/-- What inlining gives has no template keyword, and no style list is found in it. -/
theorem LeavesNoKeyword.of_result_inlineContent
    (leaves : LeavesNoKeyword setting files resolve source)
    (done : (inlineContent setting race resolve source).result files = .ok text) :
    ¬ TemplateReference.keyword <:+: text ∧ StyleReference.scan.search? text = none := by
  obtain ⟨read, styled⟩ := templated_of_result_inlineContent done
  have untemplated := leaves.templated_has_no_template read
  cases found : StyleReference.scan.search?
      (templated files resolve setting.charset source) with
  | none =>
      rw [result_inlineStyles_of_none found] at styled
      cases styled
      exact ⟨untemplated, found⟩
  | some result =>
      obtain ⟨before, reference, behind⟩ := result
      obtain ⟨bodies, loaded, rfl⟩ := (result_inlineStyles_of_some found).mp styled
      have split := (Recognizer.search?_split found).1
      have clean : ∀ body ∈ bodies, HasNoKeyword body := by
        have styles := leaves.styles
        rw [styleBodies_of_loadsStyles found loaded] at styles
        exact styles
      constructor
      · intro occurs
        have apart : KeepsApart TemplateReference.keyword (stylesProperty bodies) :=
          keepsApart_stylesProperty (.head _) fun body used => clean body used _ (.head _)
        rw [split] at untemplated
        rcases occurs_of_occurs_around apart occurs with ahead | later
        · exact untemplated (List.infix_append_of_infix_left ahead)
        · have beyond : TemplateReference.keyword <:+: spelling reference ++ behind :=
            List.infix_append_of_infix_right later
          exact untemplated (List.infix_append_of_infix_right beyond)
      · have apart : KeepsApart StyleReference.keyword (stylesProperty bodies) :=
          keepsApart_stylesProperty (.tail _ (.head _))
            fun body used => clean body used _ (.tail _ (.head _))
        refine Recognizer.search?_of_absent (fun reference => List.prefix_append _ _) ?_
        intro occurs
        -- A keyword in front of the reference or behind it would be a second one of the source.
        have own := split
        rw [spelling_append] at own
        rcases occurs_of_occurs_around apart occurs with ahead | later
        · obtain ⟨front, rest, rfl⟩ := occurs_iff.mp ahead
          have other := split
          rw [List.append_assoc front, List.append_assoc StyleReference.keyword] at other
          have same := congrArg List.length (leaves.eq_of_style_occurrences read own other)
          have filled := List.length_pos_iff.mpr StyleReference.keyword_ne_nil
          simp only [List.length_append] at same
          omega
        · obtain ⟨front, rest, rfl⟩ := occurs_iff.mp later
          have other := split
          rw [← List.append_assoc (spelling reference), ← List.append_assoc before] at other
          have same := congrArg List.length (leaves.eq_of_style_occurrences read own other)
          have filled := List.length_pos_iff.mpr reference.spelling_ne_nil
          simp only [List.length_append] at same
          omega

/-! ## Inlining again -/

theorem inlineContent_of_no_keyword (setting : Setting) (race : Race) (resolve : Text → Path)
    (untemplated : ¬ TemplateReference.keyword <:+: text)
    (unstyled : StyleReference.scan.search? text = none) :
    inlineContent setting race resolve text = .done text := by
  have chars : TemplateReference.scan.pieces text = text.map .char :=
    Recognizer.pieces_of_absent (fun reference => List.prefix_append _ _) untemplated
  have filled : fill (text.map .char : List (Piece TemplateReference)) [] = text := by
    have same := fill_map_tokensOf (spelling : TemplateReference → Text) (text.map .char)
    rw [tokensOf_chars, renderAll_chars] at same
    exact same
  have templates : inlineTemplates resolve setting.charset text = .done text := by
    unfold inlineTemplates
    rw [chars]
    dsimp only
    rw [tokensOf_chars]
    change Inquiry.done (fill (text.map .char : List (Piece TemplateReference)) []) = _
    rw [filled]
  unfold inlineContent
  rw [templates]
  change inlineStyles setting race resolve text = _
  unfold inlineStyles
  rw [unstyled]
  rfl

theorem result_inlineContent_of_read {outcome : Option Text}
    (read : (Inquiry.readExact setting.charset path).result files = .ok source)
    (done : (inlineFile setting path).result files = .ok outcome) :
    (inlineContent setting (setting.host.race path) (resolveFrom path) source).result files =
      .ok (outcome.getD source) := by
  unfold inlineFile at done
  rw [Inquiry.result_bind, read] at done
  dsimp only at done
  rw [Inquiry.result_bind] at done
  cases inlining :
      (inlineContent setting (setting.host.race path) (resolveFrom path) source).result files with
  | error fault =>
      rw [inlining] at done
      cases done
  | ok text =>
      rw [inlining] at done
      cases done
      by_cases same : text = source
      · simp [same]
      · simp [same]

theorem result_inlineFile_of_done {again : Setting}
    (read : (Inquiry.readExact again.charset path).result files = .ok text)
    (done : inlineContent again (again.host.race path) (resolveFrom path) text = .done text) :
    (inlineFile again path).result files = .ok none := by
  unfold inlineFile
  rw [Inquiry.result_bind, read]
  dsimp only
  rw [done, Inquiry.result_bind]
  simp [Inquiry.result]

theorem transformFile_of_none
    (nothing : (inlineFile setting path).result files = .ok none) :
    (transformFile setting files path).result = .ok .unchanged ∧
      (transformFile setting files path).files = files := by
  simp [transformFile, nothing, commit]

theorem Revision.readExact_put (revision : Revision setting files path)
    (readsBack : setting.charset.ReadsBack) {bytes : Bytes}
    (encoded : revision.codec.encode revision.text = .ok bytes) :
    (Inquiry.readExact setting.charset path).result
      (files.put revision.location (.file bytes)) = .ok revision.text := by
  refine Inquiry.readExact_eq_ok_iff.mpr ⟨?_, bytes, revision.codec, ?_, revision.named,
    readsBack _ revision.named _ _ encoded⟩
  · rw [Inquiry.result_checkEncodingName _ files]
    exact revision.accepted
  · exact FileSystem.read_put revision.located revision.found bytes

def cardFiles : FileSystem :=
  { cardProject with
    entries := (["card.ts"], .file (Utf8.encode cardSource)) :: cardProject.entries }

end Inlay.Component
