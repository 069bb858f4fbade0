import Inlay.Proofs.Component.Loading
import Inlay.Proofs.Literal.PathListGrammar

/-!
# The references of the source itself

The style reference that is replaced is the first one of the source with its templates inlined.
It is the first one of the source itself exactly if no inlined template shares a character with
it. A template whose text holds or begins a style reference is otherwise treated as if the source
had that reference, and the reference of the source is left alone.
-/

set_option autoImplicit false

namespace Inlay

namespace StyleReference

/-- A list is read up to the first bracket that closes it, whatever follows. -/
theorem read?_bracketed (gap : PathList.Blanks) {items : Text} (inside : .char ']' ∉ items)
    (rest : Text) :
    read? (keyword ++ (gap.text ++ .char '[' :: (items ++ .char ']' :: rest))) =
      some (⟨gap.text, "[" ++ items ++ "]"⟩, rest) := by
  have bracket : isBlank (.char '[') = false := by decide
  have closed : Text.cut? (.char ']') (items ++ .char ']' :: rest) = some (items, rest) :=
    Text.cut?_eq_some_iff.mpr ⟨rfl, inside⟩
  rw [read?, Text.after?_eq_some_iff.mpr rfl]
  dsimp only
  rw [gap.trimStart_append bracket, gap.leadingBlanks_append bracket]
  simp only [closed, Option.map_some]

theorem read?_spelling_append {text rest : Text} {reference : StyleReference}
    (reads : read? text = some (reference, rest)) (other : Text) :
    read? (spelling reference ++ other) = some (reference, other) := by
  unfold read? at reads
  split at reads
  · cases reads
  · next behind after =>
      split at reads
      · next inside trimmed =>
          simp only [Option.map_eq_some_iff, Prod.exists, Prod.mk.injEq] at reads
          obtain ⟨items, tail, cut, rfl, rfl⟩ := reads
          have again := read?_bracketed (.leading behind) (Text.cut?_eq_some_iff.mp cut).2 other
          have whole : spelling (⟨Text.leadingBlanks behind, "[" ++ items ++ "]"⟩ :
              StyleReference) ++ other =
                keyword ++ ((PathList.Blanks.leading behind).text ++
                  .char '[' :: (items ++ .char ']' :: other)) := by
            simp [spelling, Text.ofString, PathList.Blanks.leading]
          rw [whole, again]
          rfl
      · cases reads

/-- What a reader makes of a style reference depends on its own characters only. -/
def IsReadable (reference : StyleReference) : Prop :=
  ∀ rest, scan.read? (spelling reference ++ rest) = some (reference, rest)

theorem isReadable_of_search? {text before behind : Text} {reference : StyleReference}
    (found : scan.search? text = some (before, reference, behind)) : reference.IsReadable := by
  have reads : read? (spelling reference ++ behind) = some (reference, behind) :=
    (Recognizer.search?_split found).2
  exact read?_spelling_append reads

def firstStretch? (text : Text) : Option Stretch :=
  (scan.search? text).map fun (before, reference, _) =>
    ⟨before.length, before.length + (spelling reference).length⟩

theorem spelling_ne_nil (reference : StyleReference) : spelling reference ≠ [] :=
  List.append_ne_nil_of_left_ne_nil keyword_ne_nil _

end StyleReference

theorem TemplateReference.spelling_ne_nil (reference : TemplateReference) :
    spelling reference ≠ [] :=
  List.append_ne_nil_of_left_ne_nil keyword_ne_nil _

namespace Component

variable {setting : Setting} {race : Race} {files : FileSystem} {resolve : Text → Path}
  {image : TemplateReference → Text} {source text : Text} {charset : Charset}
  {front back : List (Piece TemplateReference)} {reference : StyleReference}

theorem templateImage_ne_nil (reference : TemplateReference) :
    templateImage files resolve charset reference ≠ [] := by
  unfold templateImage
  split
  · exact List.append_ne_nil_of_right_ne_nil _ (List.cons_ne_nil _ [])
  · exact reference.spelling_ne_nil

/-- In a source whose template references are replaced by their images, the first style reference
shares no character with an image. With the spelling of each reference as its image this speaks of
the source as it is. -/
def StyleIsApart (image : TemplateReference → Text) (source : Text) : Prop :=
  ∀ stretch ∈ StyleReference.firstStretch? (TemplateReference.scan.replace image source),
    ∀ covered ∈ imageStretches image 0 (TemplateReference.scan.pieces source),
      stretch.IsApart covered

instance (image : TemplateReference → Text) (source : Text) :
    Decidable (StyleIsApart image source) :=
  inferInstanceAs (Decidable (∀ stretch ∈ StyleReference.firstStretch? _, ∀ covered ∈ _, _))

theorem replace_spelling (source : Text) :
    TemplateReference.scan.replace spelling source = source :=
  Recognizer.spelling_pieces source

/-- The characters of a style reference, among the pieces of a scan for template references. -/
def StandsBetween (source : Text) (reference : StyleReference)
    (front back : List (Piece TemplateReference)) : Prop :=
  TemplateReference.scan.pieces source = front ++ ((spelling reference).map .char ++ back)

/-- A source with its template references and its first style reference replaced, and nothing
else: the pieces in front of the style reference and those behind it are kept but for the
template references among them. -/
inductive InlinesOwn (setting : Setting) (files : FileSystem) (resolve : Text → Path)
    (image : TemplateReference → Text) (source : Text) : Text → Prop where
  | unstyled (absent : StyleReference.scan.search? source = none) :
      InlinesOwn setting files resolve image source (TemplateReference.scan.replace image source)
  | styled {front back : List (Piece TemplateReference)} {reference : StyleReference}
      {bodies : List Text}
      (between : StandsBetween source reference front back)
      (first : StyleReference.scan.search? source =
        some (spellingOf front, reference, spellingOf back))
      (loaded : LoadsStyles setting files resolve reference bodies) :
      InlinesOwn setting files resolve image source
        (renderAll image front ++ stylesProperty bodies ++ renderAll image back)

/-!
## Where the first style reference stands
-/

theorem StandsBetween.replace_eq (between : StandsBetween source reference front back)
    (image : TemplateReference → Text) :
    TemplateReference.scan.replace image source =
      renderAll image front ++ (spelling reference ++ renderAll image back) :=
  renderAll_of_split between

/-- The first style reference is met no later than one that stands among the characters. -/
theorem StandsBetween.search? (between : StandsBetween source reference front back)
    (readable : reference.IsReadable) (image : TemplateReference → Text) :
    ∃ before first behind,
      StyleReference.scan.search? (TemplateReference.scan.replace image source) =
        some (before, first, behind) ∧ before.length ≤ (renderAll image front).length := by
  rw [between.replace_eq]
  exact Recognizer.search?_first _ (readable _)

theorem StandsBetween.eq_of_length {before behind : Text} {first : StyleReference}
    (between : StandsBetween source reference front back) (readable : reference.IsReadable)
    (found : StyleReference.scan.search? (TemplateReference.scan.replace image source) =
      some (before, first, behind))
    (length : before.length = (renderAll image front).length) :
    before = renderAll image front ∧ first = reference ∧ behind = renderAll image back := by
  rw [between.replace_eq] at found
  exact Recognizer.search?_eq_of_length found (readable _) length

theorem standsBetween_of_styleIsApart {before behind : Text}
    (nonempty : ∀ token, image token ≠ []) (apart : StyleIsApart image source)
    (found : StyleReference.scan.search? (TemplateReference.scan.replace image source) =
      some (before, reference, behind)) :
    ∃ front back, StandsBetween source reference front back ∧
      renderAll image front = before ∧ renderAll image back = behind := by
  have stretch : (⟨before.length, before.length + (spelling reference).length⟩ : Stretch) ∈
      StyleReference.firstStretch? (TemplateReference.scan.replace image source) := by
    rw [StyleReference.firstStretch?, found]
    rfl
  have inside : ∀ covered ∈ imageStretches image 0 (TemplateReference.scan.pieces source),
      Stretch.IsApart ⟨0 + before.length, 0 + before.length + (spelling reference).length⟩
        covered := by
    rw [Nat.zero_add]
    exact apart _ stretch
  obtain ⟨front, back, split, rendered, others⟩ := pieces_split_of_apart 0 nonempty
    reference.spelling_ne_nil (Recognizer.search?_split found).1 inside
  exact ⟨front, back, split, rendered, others⟩

theorem styleIsApart_of_standsBetween (between : StandsBetween source reference front back)
    (found : StyleReference.scan.search? (TemplateReference.scan.replace image source) =
      some (renderAll image front, reference, renderAll image back)) :
    StyleIsApart image source := by
  intro stretch first
  rw [StyleReference.firstStretch?, found] at first
  cases first
  exact apart_of_pieces_split between

/-!
## Keywords and properties
-/

def stylesOpening : Text := "styles: ['"

theorem stylesProperty_append (bodies : List Text) (rest : Text) :
    stylesProperty bodies ++ rest =
      stylesOpening ++ (Text.joinWith ",\n" bodies ++ ("']" ++ rest)) := by
  simp [stylesProperty, stylesOpening]

theorem spelling_append (reference : StyleReference) (rest : Text) :
    spelling reference ++ rest =
      StyleReference.keyword ++ (reference.gap ++ (reference.literal ++ rest)) := by
  simp [spelling]

/-- The keyword of style references and the property begin to differ in the sixth character. -/
theorem stylesProperty_append_eq (bodies : List Text) (rest : Text) :
    ∃ more, stylesProperty bodies ++ rest = Text.ofString "style" ++ .char 's' :: more :=
  ⟨_, stylesProperty_append bodies rest⟩

theorem spelling_append_eq (reference : StyleReference) (rest : Text) :
    ∃ more, spelling reference ++ rest = Text.ofString "style" ++ .char 'U' :: more :=
  ⟨_, spelling_append reference rest⟩

theorem stylesProperty_append_ne (reference : StyleReference) (bodies : List Text)
    (rest other : Text) : stylesProperty bodies ++ rest ≠ spelling reference ++ other := by
  rw [stylesProperty_append, spelling_append]
  simp [StyleReference.keyword, stylesOpening, Text.ofString]

/-- Two texts that arise from one by replacing a style reference each are the same only if the
references begin at the same place. -/
theorem eq_of_replaced {before behind before' behind' : Text} {reference' : StyleReference}
    {bodies bodies' : List Text}
    (same : before ++ (spelling reference ++ behind) = before' ++ (spelling reference' ++ behind'))
    (replaced : before ++ stylesProperty bodies ++ behind =
      before' ++ stylesProperty bodies' ++ behind') : before = before' := by
  obtain ⟨more, spelled⟩ := spelling_append_eq reference behind
  obtain ⟨more', spelled'⟩ := spelling_append_eq reference' behind'
  obtain ⟨styles, written⟩ := stylesProperty_append_eq bodies behind
  obtain ⟨styles', written'⟩ := stylesProperty_append_eq bodies' behind'
  rw [spelled, spelled', ← List.append_assoc, ← List.append_assoc] at same
  rw [List.append_assoc, List.append_assoc, written, written', ← List.append_assoc,
    ← List.append_assoc] at replaced
  have places := (eq_of_first_difference (by decide) (by decide) same replaced).1
  exact List.append_cancel_right places

/-!
## Inlining the references of the source
-/

/-- Where the first style reference is apart from the inlined templates, it is that of the
source. -/
theorem inlinesOwn_of_styleIsApart (nonempty : ∀ token, image token ≠ [])
    (apart : StyleIsApart spelling source) (own : StyleIsApart image source)
    (styled :
      (inlineStyles setting race resolve (TemplateReference.scan.replace image source)).result files =
        .ok text) : InlinesOwn setting files resolve image source text := by
  cases found : StyleReference.scan.search? (TemplateReference.scan.replace image source) with
  | none =>
      rw [result_inlineStyles_of_none found] at styled
      cases styled
      refine .unstyled ?_
      cases sought : StyleReference.scan.search? source with
      | none => rfl
      | some result =>
          obtain ⟨before, reference, behind⟩ := result
          have readable := StyleReference.isReadable_of_search? sought
          rw [← replace_spelling source] at sought
          obtain ⟨front, back, between, -, -⟩ :=
            standsBetween_of_styleIsApart TemplateReference.spelling_ne_nil apart sought
          obtain ⟨_, _, _, first, -⟩ := between.search? readable image
          rw [found] at first
          cases first
  | some result =>
      obtain ⟨before, reference, behind⟩ := result
      have readable := StyleReference.isReadable_of_search? found
      obtain ⟨bodies, loaded, rfl⟩ := (result_inlineStyles_of_some found).mp styled
      obtain ⟨front, back, between, rfl, rfl⟩ := standsBetween_of_styleIsApart nonempty own found
      -- The source has a style reference too, so it has a first one, which is met again in turn.
      obtain ⟨before, first, behind, sought, ahead⟩ := between.search? readable spelling
      have firstReadable := StyleReference.isReadable_of_search? sought
      obtain ⟨front', back', between', rfl, rfl⟩ :=
        standsBetween_of_styleIsApart TemplateReference.spelling_ne_nil apart sought
      obtain ⟨_, _, _, again, behindAgain⟩ := between'.search? firstReadable image
      rw [found] at again
      cases again
      have same : front' = front := by
        rcases List.prefix_or_prefix_of_prefix ⟨_, between'.symm⟩ ⟨_, between.symm⟩ with
          prior | prior
        · exact eq_of_length_renderAll_le nonempty prior behindAgain
        · exact (eq_of_length_renderAll_le TemplateReference.spelling_ne_nil prior ahead).symm
      subst same
      obtain ⟨-, rfl, others⟩ := between.eq_of_length readable sought rfl
      rw [others, replace_spelling] at sought
      exact .styled between sought loaded

/-- Where a reference of the source was replaced, it is the first one of the templated source. -/
theorem styleIsApart_of_inlinesOwn
    (styled :
      (inlineStyles setting race resolve (TemplateReference.scan.replace image source)).result files =
        .ok text) (own : InlinesOwn setting files resolve image source text) :
    StyleIsApart image source := by
  cases found : StyleReference.scan.search? (TemplateReference.scan.replace image source) with
  | none =>
      intro stretch first
      rw [StyleReference.firstStretch?, found] at first
      cases first
  | some result =>
      obtain ⟨before, reference, behind⟩ := result
      obtain ⟨bodies, -, replaced⟩ := (result_inlineStyles_of_some found).mp styled
      have split := (Recognizer.search?_split found).1
      cases own with
      | unstyled absent =>
          rw [split, List.append_assoc, List.append_cancel_left_eq] at replaced
          exact absurd replaced.symm (stylesProperty_append_ne reference bodies behind behind)
      | @styled front back own _ between first _ =>
          have readable := StyleReference.isReadable_of_search? first
          rw [between.replace_eq] at split
          have place := eq_of_replaced split.symm replaced.symm
          obtain ⟨rfl, rfl, rfl⟩ :=
            between.eq_of_length readable found (congrArg List.length place)
          exact styleIsApart_of_standsBetween between found

theorem templated_of_result_inlineContent
    (done : (inlineContent setting race resolve source).result files = .ok text) :
    TemplatesAreRead files resolve setting.charset source ∧
      (inlineStyles setting race resolve
        (templated files resolve setting.charset source)).result files =
          .ok text := by
  unfold inlineContent at done
  rw [Inquiry.result_bind] at done
  split at done
  · next whole inlined =>
      obtain ⟨read, rfl⟩ := templated_of_result_inlineTemplates inlined
      exact ⟨read, done⟩
  · cases done

/-- Inlining replaces the template references of the source and its first style reference exactly
if no inlined template shares a character with the first style reference of the templated source.
In any case it is this one whose styles stand in its place. -/
theorem inlines_own_references_iff
    (done : (inlineContent setting race resolve source).result files = .ok text)
    (apart : StyleIsApart spelling source) :
    TemplatesAreRead files resolve setting.charset source ∧
      (InlinesOwn setting files resolve
          (templateImage files resolve setting.charset) source text ↔
        StyleIsApart (templateImage files resolve setting.charset) source) ∧
      ∀ before reference behind,
        StyleReference.scan.search?
            (templated files resolve setting.charset source) =
          some (before, reference, behind) →
        ∃ bodies, LoadsStyles setting files resolve reference bodies ∧
          text = before ++ stylesProperty bodies ++ behind := by
  obtain ⟨read, styled⟩ := templated_of_result_inlineContent done
  refine ⟨read, ?_, fun before reference behind found => ?_⟩
  · constructor
    · intro own
      exact styleIsApart_of_inlinesOwn styled own
    · intro own
      exact inlinesOwn_of_styleIsApart templateImage_ne_nil apart own styled
  · exact (result_inlineStyles_of_some found).mp styled

def plainSetting : Setting := ⟨{}, [], .common .ok⟩

def cardSource : Text := "templateUrl: 'a.html', styleUrls: ['b.css', 'b.css']"

/-- A template, one that shows how a style reference is written, and a stylesheet. -/
def cardProject : FileSystem where
  entries :=
    [(["a.html"], .file (Utf8.encode "<p>")),
     (["lesson.html"], .file (Utf8.encode "styleUrls:['b.css']")),
     (["b.css"], .file (Utf8.encode "p"))]
  workingDirectory := []

theorem inlines_own_references_of_card :
    (inlineContent plainSetting Race.inOrder Path.ofText cardSource).result cardProject =
        .ok "template: \"<p>\", styles: ['p,\np']" ∧
      StyleIsApart spelling cardSource ∧
      InlinesOwn plainSetting cardProject Path.ofText
        (templateImage cardProject Path.ofText .utf8) cardSource
        "template: \"<p>\", styles: ['p,\np']" := by
  have done : (inlineContent plainSetting Race.inOrder Path.ofText cardSource).result cardProject =
      .ok "template: \"<p>\", styles: ['p,\np']" := by decide +kernel
  have apart : StyleIsApart spelling cardSource := by decide +kernel
  obtain ⟨-, own, -⟩ := inlines_own_references_iff done apart
  refine ⟨done, apart, own.mpr ?_⟩
  decide +kernel

theorem style_of_template_is_inlined :
    ¬ ∀ (setting : Setting) (race : Race) (files : FileSystem) (resolve : Text → Path)
      (source text : Text), (inlineContent setting race resolve source).result files = .ok text →
      StyleIsApart spelling source → InlinesOwn setting files resolve
        (templateImage files resolve setting.charset) source text := by
  intro inlines
  have own := inlines plainSetting Race.inOrder cardProject Path.ofText "templateUrl: 'lesson.html'"
    "template: \"styles: ['p']\"" (by decide +kernel) (by decide +kernel)
  generalize same : (("template: \"styles: ['p']\"" : String) : Text) = text at own
  cases own with
  | unstyled absent =>
      revert same
      decide +kernel
  | styled between first loaded =>
      have absent : StyleReference.scan.search? "templateUrl: 'lesson.html'" = none := by
        decide +kernel
      rw [absent] at first
      cases first

end Component

end Inlay
