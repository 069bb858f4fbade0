import Inlay.Proofs.Component.Loading
import Inlay.Proofs.Literal.PathListGrammar
import Inlay.Proofs.Text.Occurrences

/-!
# The places of templates

A source that is written as texts without the keyword of template references, with a template
reference between each two of them, is scanned into exactly these references
(`CutSource.pieces_text`). Its templates take their places, whatever they contain, or the first
one that cannot be read stops the inlining.
-/

set_option autoImplicit false

namespace Inlay

/-- A template reference as it may be written: the blanks behind the keyword, and what stands in
front of the ending of the path. -/
structure WrittenTemplate where
  gap : PathList.Blanks
  name : Text
  named : name ≠ []
  unquoted : .char '\'' ∉ name

def WrittenTemplate.path (written : WrittenTemplate) : Text :=
  written.name ++ TemplateReference.ending

def WrittenTemplate.reference (written : WrittenTemplate) : TemplateReference :=
  ⟨written.gap.text, written.path⟩

/-- A text without the keyword of template references. -/
structure UnmarkedText where
  text : Text
  absent : ¬ TemplateReference.keyword <:+: text

/-- A source cut at its template references: the text in front of the first one, and each of
them with the text behind it. -/
structure CutSource where
  front : UnmarkedText
  marks : List (WrittenTemplate × UnmarkedText)

namespace CutSource

def templates (source : CutSource) : List WrittenTemplate := source.marks.map (·.1)

/-- The source with a text in the place of each template reference. -/
def fillWith (image : WrittenTemplate → Text) (source : CutSource) : Text :=
  source.front.text ++
    source.marks.flatMap fun (written, behind) => image written ++ behind.text

def text (source : CutSource) : Text := source.fillWith fun written => spelling written.reference

def pieces (source : CutSource) : List (Piece TemplateReference) :=
  source.front.text.map .char ++
    source.marks.flatMap fun (written, behind) =>
      .token written.reference :: behind.text.map .char

end CutSource

/-! ## Scanning -/

namespace TemplateReference

theorem led (reference : TemplateReference) : keyword <+: spelling reference :=
  List.prefix_append _ _

theorem read?_written (written : WrittenTemplate) (rest : Text) :
    read? (spelling written.reference ++ rest) = some (written.reference, rest) := by
  have quote : isBlank (.char '\'') = false := by decide
  have spelled : spelling written.reference ++ rest =
      keyword ++ (written.gap.text ++ .char '\'' :: (written.path ++ .char '\'' :: rest)) := by
    simp [spelling, WrittenTemplate.reference, Text.ofString]
  have quoted : .char '\'' ∉ written.path := by
    have ended : (.char '\'' : CodePoint) ∉ ending := by decide
    simp [WrittenTemplate.path, written.unquoted, ended]
  have closed : Text.cut? (.char '\'') (written.path ++ .char '\'' :: rest) =
      some (written.path, rest) := Text.cut?_eq_some_iff.mpr ⟨rfl, quoted⟩
  have isPath : isTemplatePath written.path = true := by
    have filled := List.length_pos_iff.mpr written.named
    simp [isTemplatePath, WrittenTemplate.path, Text.endsWith, filled]
  rw [spelled, read?, Text.after?_eq_some_iff.mpr rfl]
  dsimp only
  rw [written.gap.trimStart_append quote, written.gap.leadingBlanks_append quote]
  simp only [closed, isPath, if_true]
  rfl

end TemplateReference

namespace CutSource

/-- A template reference is met where it stands: the keyword neither overlaps itself nor stands
in front of it. -/
theorem search?_written (front : UnmarkedText) (written : WrittenTemplate) (rest : Text) :
    TemplateReference.scan.search? (front.text ++ (spelling written.reference ++ rest)) =
      some (front.text, written.reference, rest) := by
  have reads : TemplateReference.scan.read? (spelling written.reference ++ rest) =
      some (written.reference, rest) := TemplateReference.read?_written written rest
  have spelled : spelling written.reference ++ rest = TemplateReference.keyword ++
      (written.gap.text ++ ("'" ++ (written.path ++ "'")) ++ rest) := List.append_assoc _ _ _
  rw [spelled] at reads ⊢
  exact Recognizer.search?_at_keyword TemplateReference.led (by decide) front.absent reads

theorem pieces_text (source : CutSource) :
    TemplateReference.scan.pieces source.text = source.pieces := by
  obtain ⟨front, marks⟩ := source
  induction marks generalizing front with
  | nil =>
      have alone : TemplateReference.scan.pieces front.text = front.text.map .char :=
        Recognizer.pieces_of_absent TemplateReference.led front.absent
      simpa [text, fillWith, pieces] using alone
  | cons mark marks ih =>
      obtain ⟨written, behind⟩ := mark
      have whole : text ⟨front, (written, behind) :: marks⟩ =
          front.text ++ (spelling written.reference ++ text ⟨behind, marks⟩) := by
        simp [text, fillWith]
      have found := search?_written front written (text ⟨behind, marks⟩)
      rw [whole, Recognizer.pieces_of_search? found, ih behind]
      simp [pieces]

theorem tokensOf_pieces (source : CutSource) :
    tokensOf source.pieces = source.templates.map (·.reference) := by
  have chars : ∀ text : Text,
      tokensOf (text.map .char : List (Piece TemplateReference)) = [] := tokensOf_chars
  obtain ⟨front, marks⟩ := source
  induction marks generalizing front with
  | nil => simpa [pieces, templates] using chars front.text
  | cons mark marks ih =>
      obtain ⟨written, behind⟩ := mark
      have later := ih behind
      simp only [tokensOf, pieces, templates, List.filterMap_append, List.flatMap_cons,
        List.filterMap_cons, List.map_cons, List.cons_append] at chars later ⊢
      rw [chars, later]
      rfl

theorem renderAll_pieces (image : TemplateReference → Text) (source : CutSource) :
    renderAll image source.pieces = source.fillWith fun written => image written.reference := by
  rw [pieces, fillWith, renderAll, List.flatMap_append, List.flatMap_assoc]
  congr 1
  · exact renderAll_chars source.front.text
  · refine List.flatMap_congr fun mark _ => ?_
    exact congrArg (image mark.1.reference ++ ·) (renderAll_chars mark.2.text)

theorem fillWith_congr {source : CutSource} {image other : WrittenTemplate → Text}
    (same : ∀ written ∈ source.templates, image written = other written) :
    source.fillWith image = source.fillWith other := by
  unfold fillWith
  congr 1
  refine List.flatMap_congr fun mark member => ?_
  exact congrArg (· ++ mark.2.text) (same mark.1 (List.mem_map_of_mem member))

end CutSource

/-! ## Inlining -/

namespace Component

variable {files : FileSystem} {resolve : Text → Path} {charset : Charset}

abbrev TemplateReads (files : FileSystem) (resolve : Text → Path) (charset : Charset)
    (written : WrittenTemplate) (outcome : Except Fault Text) : Prop :=
  (Inquiry.readResource charset (resolve written.path)).result files = outcome

/-- Where all templates can be read, each takes the place of its reference and the texts between
them stay; otherwise the fault of the first one that cannot be read is that of the inlining. -/
theorem inlineTemplates_written (files : FileSystem) (resolve : Text → Path)
    (charset : Charset) (source : CutSource) :
    (∀ contentOf : WrittenTemplate → Text,
      (∀ written ∈ source.templates,
        TemplateReads files resolve charset written (.ok (contentOf written))) →
      (inlineTemplates resolve charset source.text).result files =
        .ok (source.fillWith fun written => templateProperty (contentOf written))) ∧
    ∀ before failing behind fault, source.templates = before ++ failing :: behind →
      (∀ written ∈ before, ∃ content,
        TemplateReads files resolve charset written (.ok content)) →
      TemplateReads files resolve charset failing (.error fault) →
      (inlineTemplates resolve charset source.text).result files = .error fault := by
  have tokens := source.tokensOf_pieces
  rw [← source.pieces_text] at tokens
  constructor
  · intro contentOf reads
    have read : TemplatesAreRead files resolve charset source.text := by
      intro reference member
      rw [tokens] at member
      obtain ⟨written, among, rfl⟩ := List.mem_map.mp member
      exact ⟨_, reads written among⟩
    have images : ∀ written ∈ source.templates,
        templateImage files resolve charset written.reference =
          templateProperty (contentOf written) := by
      intro written member
      unfold templateImage
      rw [show (Inquiry.readResource charset (resolve written.reference.path)).result
        files = _ from reads written member]
    rw [result_inlineTemplates_of_read read, templated, Recognizer.replace, source.pieces_text]
    exact congrArg _ ((source.renderAll_pieces _).trans (CutSource.fillWith_congr images))
  · intro before failing behind fault split done failed
    rw [split, List.map_append, List.map_cons] at tokens
    refine result_inlineTemplates_of_error tokens (fun reference member => ?_) failed
    obtain ⟨written, among, rfl⟩ := List.mem_map.mp member
    exact done written among

/-- A template that shows how a template reference is written, and one whose name has an ending in
its middle. -/
def lessonProject : FileSystem where
  entries :=
    [(["a.html"], .file (Utf8.encode "templateUrl: 'b.html'")),
     (["b.html.html"], .file (Utf8.encode "<b>\n \"b\""))]
  workingDirectory := []

def writtenAs (name : Text) (named : name ≠ []) (unquoted : .char '\'' ∉ name) :
    WrittenTemplate := ⟨⟨[' '], by decide⟩, name, named, unquoted⟩

def shownTemplate : WrittenTemplate := writtenAs "a" (by decide) (by decide)

def endedTwice : WrittenTemplate := writtenAs "b.html" (by decide) (by decide)

def missingTemplate : WrittenTemplate := writtenAs "c" (by decide) (by decide)

def lessonSource (last : WrittenTemplate) : CutSource where
  front := ⟨"x, template", by decide +kernel⟩
  marks := [(shownTemplate, ⟨", ", by decide +kernel⟩), (last, ⟨"; Url:", by decide +kernel⟩)]

theorem inlineTemplates_written_of_lesson :
    (lessonSource endedTwice).text =
        "x, templatetemplateUrl: 'a.html', templateUrl: 'b.html.html'; Url:" ∧
      (inlineTemplates Path.ofText .utf8 (lessonSource endedTwice).text).result lessonProject =
        .ok ("x, templatetemplate: \"templateUrl: 'b.html'\", " ++
          "template: \"<b> \\\"b\\\"\"; Url:") ∧
      (inlineTemplates Path.ofText .utf8 (lessonSource missingTemplate).text).result
        lessonProject = .error (.resourceNotFound "c.html" none) := by
  refine ⟨by decide +kernel, ?_, ?_⟩
  · let contentOf (written : WrittenTemplate) : Text :=
      if written.name = "a" then "templateUrl: 'b.html'" else "<b>\n \"b\""
    have reads : ∀ written ∈ (lessonSource endedTwice).templates,
        TemplateReads lessonProject Path.ofText .utf8 written (.ok (contentOf written)) := by
      intro written member
      rcases List.mem_cons.mp member with rfl | later
      · decide +kernel
      · obtain rfl := List.mem_singleton.mp later
        decide +kernel
    have inlined := (inlineTemplates_written lessonProject Path.ofText .utf8
      (lessonSource endedTwice)).1 contentOf reads
    refine inlined.trans ?_
    decide +kernel
  · have shown : TemplateReads lessonProject Path.ofText .utf8 shownTemplate
        (.ok "templateUrl: 'b.html'") := by decide +kernel
    refine (inlineTemplates_written lessonProject Path.ofText .utf8
      (lessonSource missingTemplate)).2 [shownTemplate] missingTemplate [] _ rfl ?_ ?_
    · intro written member
      obtain rfl := List.mem_singleton.mp member
      exact ⟨_, shown⟩
    · decide +kernel

end Component

end Inlay
