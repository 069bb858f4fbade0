import Inlay.Proofs.Component.Rerun
import Inlay.Proofs.Component.StyleList
import Inlay.Proofs.Component.TemplatePlaces

/-!
# Sources that are left alone

The text that inlining gives is the source itself exactly if the source holds no reference,
whatever the templates and the styles are (`eq_source_iff`). So a source file is left alone, and
nothing is written, exactly if its text holds no reference (`transformFile_unchanged_iff`).
-/

set_option autoImplicit false

namespace Inlay

/-! ## Texts with references -/

/-- A template reference stands somewhere in the text. -/
def HoldsTemplateReference (text : Text) : Prop :=
  ∃ (before : Text) (written : WrittenTemplate) (behind : Text),
    text = before ++ (spelling written.reference ++ behind)

/-- A style reference stands somewhere in the text: what is between its brackets may be
anything. -/
def HoldsStyleReference (text : Text) : Prop :=
  ∃ (before : Text) (gap : PathList.Blanks) (items behind : Text),
    text = before ++ (spelling (Component.bracketed gap items) ++ behind)

def HasNoReference (text : Text) : Prop :=
  ¬ HoldsTemplateReference text ∧ ¬ HoldsStyleReference text

theorem TemplateReference.exists_written_of_read? {text rest : Text}
    {reference : TemplateReference} (reads : scan.read? text = some (reference, rest)) :
    ∃ written : WrittenTemplate, written.reference = reference := by
  change read? text = _ at reads
  unfold read? at reads
  split at reads
  · cases reads
  · next behind after =>
      split at reads
      · split at reads
        · next path tail cut =>
            split at reads
            · next isPath =>
                cases reads
                obtain ⟨ended, longer⟩ := Bool.and_eq_true_iff.mp isPath
                obtain ⟨name, rfl⟩ := List.isSuffixOf_iff_suffix.mp ended
                have named : name ≠ [] := by
                  rintro rfl
                  simp at longer
                have unquoted : .char '\'' ∉ name := fun member =>
                  (Text.cut?_eq_some_iff.mp cut).2 (List.mem_append_left _ member)
                exact ⟨⟨.leading behind, name, named, unquoted⟩, rfl⟩
            · cases reads
        · cases reads
      · cases reads

theorem holdsTemplateReference_iff {text : Text} :
    HoldsTemplateReference text ↔ TemplateReference.scan.search? text ≠ none := by
  rw [Option.ne_none_iff_exists']
  constructor
  · intro ⟨before, written, behind, split⟩
    subst split
    have reads : TemplateReference.scan.read? (spelling written.reference ++ behind) =
        some (written.reference, behind) := TemplateReference.read?_written written behind
    obtain ⟨_, _, _, found, -⟩ := Recognizer.search?_first before reads
    exact ⟨_, found⟩
  · intro ⟨⟨before, reference, behind⟩, found⟩
    obtain ⟨split, reads⟩ := Recognizer.search?_split found
    obtain ⟨written, rfl⟩ := TemplateReference.exists_written_of_read? reads
    exact ⟨before, written, behind, split⟩

theorem StyleReference.exists_bracketed_of_read? {text rest : Text} {reference : StyleReference}
    (reads : scan.read? text = some (reference, rest)) :
    ∃ gap items, Component.bracketed gap items = reference := by
  change read? text = _ at reads
  unfold read? at reads
  split at reads
  · cases reads
  · next behind after =>
      split at reads
      · simp only [Option.map_eq_some_iff, Prod.exists, Prod.mk.injEq] at reads
        obtain ⟨items, tail, cut, rfl, rfl⟩ := reads
        exact ⟨.leading behind, items, Component.bracketed_eq _ _⟩
      · cases reads

/-- Whatever stands between the brackets, a list is read up to the first closing one. -/
theorem StyleReference.exists_read?_bracketed (gap : PathList.Blanks) (items behind : Text) :
    ∃ reference rest, scan.read? (spelling (Component.bracketed gap items) ++ behind) =
      some (reference, rest) := by
  have closed : Text.cut? (.char ']') (items ++ .char ']' :: behind) ≠ none := fun none =>
    Text.cut?_eq_none_iff.mp none (List.mem_append_right _ (.head _))
  obtain ⟨⟨inside, rest⟩, cut⟩ := Option.ne_none_iff_exists'.mp closed
  obtain ⟨split, absent⟩ := Text.cut?_eq_some_iff.mp cut
  rw [Component.spelling_bracketed_append, split]
  exact ⟨_, _, read?_bracketed gap absent rest⟩

theorem holdsStyleReference_iff {text : Text} :
    HoldsStyleReference text ↔ StyleReference.scan.search? text ≠ none := by
  rw [Option.ne_none_iff_exists']
  constructor
  · intro ⟨before, gap, items, behind, split⟩
    subst split
    obtain ⟨_, _, reads⟩ := StyleReference.exists_read?_bracketed gap items behind
    obtain ⟨_, _, _, found, -⟩ := Recognizer.search?_first before reads
    exact ⟨_, found⟩
  · intro ⟨⟨before, reference, behind⟩, found⟩
    obtain ⟨split, reads⟩ := Recognizer.search?_split found
    obtain ⟨gap, items, rfl⟩ := StyleReference.exists_bracketed_of_read? reads
    exact ⟨before, gap, items, behind, split⟩

theorem hasNoReference_iff {text : Text} :
    HasNoReference text ↔ TemplateReference.scan.search? text = none ∧
      StyleReference.scan.search? text = none := by
  rw [HasNoReference, holdsTemplateReference_iff, holdsStyleReference_iff, not_not, not_not]

/-! ## Inlined texts differ from their sources -/

namespace Component

variable {setting : Setting} {race : Race} {files : FileSystem} {resolve : Text → Path}
  {path : Path} {source text : Text} {charset : Charset}

theorem templateProperty_append_eq (content rest : Text) :
    ∃ more, templateProperty content ++ rest = Text.ofString "template" ++ .char ':' :: more :=
  ⟨_, List.append_assoc _ _ _⟩

theorem templateSpelling_append_eq (reference : TemplateReference) (rest : Text) :
    ∃ more, spelling reference ++ rest = Text.ofString "template" ++ .char 'U' :: more :=
  ⟨_, List.append_assoc _ _ _⟩

theorem templated_of_search?_eq_none
    (absent : TemplateReference.scan.search? source = none) :
    templated files resolve charset source = source := by
  unfold templated Recognizer.replace
  rw [Recognizer.pieces_of_search?_eq_none absent]
  exact renderAll_chars source

theorem eq_content_iff_of_result_inlineStyles {content : Text}
    (styled : (inlineStyles setting race resolve content).result files = .ok text) :
    text = content ↔ StyleReference.scan.search? content = none := by
  cases found : StyleReference.scan.search? content with
  | none =>
      rw [result_inlineStyles_of_none found] at styled
      cases styled
      exact iff_of_true rfl rfl
  | some result =>
      obtain ⟨before, reference, behind⟩ := result
      obtain ⟨bodies, -, rfl⟩ := (result_inlineStyles_of_some found).mp styled
      refine iff_of_false (fun same => ?_) nofun
      rw [(Recognizer.search?_split found).1, List.append_assoc, List.append_cancel_left_eq] at same
      exact stylesProperty_append_ne reference bodies behind behind same

theorem templated_of_search? {before behind content : Text} {reference : TemplateReference}
    (found : TemplateReference.scan.search? source = some (before, reference, behind))
    (read : (Inquiry.readResource charset (resolve reference.path)).result files =
      .ok content) :
    ∃ rest, templated files resolve charset source =
      before ++ (templateProperty content ++ rest) := by
  have image : templateImage files resolve charset reference = templateProperty content := by
    rw [templateImage, read]
  refine ⟨TemplateReference.scan.replace (templateImage files resolve charset) behind, ?_⟩
  unfold templated Recognizer.replace
  rw [Recognizer.pieces_of_search? found, List.flatMap_append, List.flatMap_cons]
  exact congrArg₂ (· ++ ·) (renderAll_chars before) (congrArg (· ++ _) image)

/-- A source with a template reference differs from the templated one, and this one from the text
with the styles. Where they begin to differ the templated source has a colon the first time and a
letter the second time, so the differences do not cancel out. -/
theorem ne_source_of_template {before behind : Text} {reference : TemplateReference}
    (found : TemplateReference.scan.search? source = some (before, reference, behind))
    (read : TemplatesAreRead files resolve charset source)
    (styled : (inlineStyles setting race resolve
      (templated files resolve charset source)).result files = .ok text) :
    text ≠ source := by
  obtain ⟨content, contentRead⟩ := read reference (by
    simp [Recognizer.pieces_of_search? found, tokensOf])
  obtain ⟨rest, written⟩ := templated_of_search? found contentRead
  obtain ⟨more, opened⟩ := templateProperty_append_eq content rest
  obtain ⟨others, spelled⟩ := templateSpelling_append_eq reference behind
  have split := (Recognizer.search?_split found).1
  rw [opened, ← List.append_assoc] at written
  rw [spelled, ← List.append_assoc] at split
  rw [written] at styled
  rintro rfl
  cases sought : StyleReference.scan.search?
      (before ++ Text.ofString "template" ++ .char ':' :: more) with
  | none =>
      rw [result_inlineStyles_of_none sought] at styled
      cases styled
      cases List.append_cancel_left split
  | some result =>
      obtain ⟨front, style, back⟩ := result
      obtain ⟨bodies, -, replaced⟩ := (result_inlineStyles_of_some sought).mp styled
      have whole := (Recognizer.search?_split sought).1
      obtain ⟨tail, spelledStyle⟩ := spelling_append_eq style back
      obtain ⟨tail', writtenStyles⟩ := stylesProperty_append_eq bodies back
      rw [spelledStyle, ← List.append_assoc] at whole
      rw [List.append_assoc, writtenStyles, ← List.append_assoc] at replaced
      have same := eq_of_first_difference (by decide) (by decide) whole (split.symm.trans replaced)
      cases same.2.1

/-- What inlining gives is the source itself exactly if the source holds no reference. -/
theorem eq_source_iff (done : (inlineContent setting race resolve source).result files = .ok text) :
    text = source ↔ HasNoReference source := by
  obtain ⟨read, styled⟩ := templated_of_result_inlineContent done
  rw [hasNoReference_iff]
  cases found : TemplateReference.scan.search? source with
  | none =>
      rw [templated_of_search?_eq_none found] at styled
      rw [eq_content_iff_of_result_inlineStyles styled]
      exact (and_iff_right rfl).symm
  | some result =>
      obtain ⟨before, reference, behind⟩ := result
      exact iff_of_false (ne_source_of_template found read styled) nofun

/-! ## Source files that are left alone -/

/-- There is no text to be written, and the run of a source file is its inquiry, which only
reads. -/
structure StaysUnwritten (setting : Setting) (files : FileSystem) (path : Path) : Prop where
  asked : (inlineFile setting path).result files = .ok none
  outcome : transformFile setting files path =
    ⟨files, (inlineFile setting path).reports files, .ok .unchanged⟩

/-- A text is written to the source file, which then holds its bytes. A codec that reads back what
it writes reads them as this text. -/
structure IsRewritten (setting : Setting) (files : FileSystem) (path : Path) (text : Text) :
    Prop where
  asked : (inlineFile setting path).result files = .ok (some text)
  written : writeSource files setting.charset path text =
    ((transformFile setting files path).files, .ok ())
  held : ∃ bytes, setting.charset.encode text = .ok bytes ∧
    (transformFile setting files path).files.read path = .ok bytes
  readAgain : setting.charset.ReadsBack → (Inquiry.readExact setting.charset path).result
    (transformFile setting files path).files = .ok text

theorem staysUnwritten_of_none (nothing : (inlineFile setting path).result files = .ok none) :
    StaysUnwritten setting files path where
  asked := nothing
  outcome := by simp [transformFile, nothing, commit]

theorem Revision.isRewritten (revision : Revision setting files path) {bytes : Bytes}
    (encoded : revision.codec.encode revision.text = .ok bytes)
    (left : (transformFile setting files path).files =
      files.put revision.location (.file bytes)) :
    IsRewritten setting files path revision.text where
  asked := revision.result_inlineFile
  written := by
    rw [revision.writeSource_eq, encoded, left]
  held := by
    refine ⟨bytes, ?_, ?_⟩
    · simp only [Charset.encode, revision.named, encoded, mapError_ok]
    · rw [left]
      exact FileSystem.read_put revision.located revision.found bytes
  readAgain readsBack := by
    rw [left]
    exact revision.readExact_put readsBack encoded

theorem exists_source_of_none (nothing : (inlineFile setting path).result files = .ok none) :
    ∃ source, (Inquiry.readExact setting.charset path).result files = .ok source ∧
      (inlineContent setting (setting.host.race path) (resolveFrom path) source).result files =
        .ok source := by
  cases read : (Inquiry.readExact setting.charset path).result files with
  | error fault =>
      rw [inlineFile, Inquiry.result_bind, read] at nothing
      cases nothing
  | ok source => exact ⟨source, rfl, result_inlineContent_of_read read nothing⟩

/-- A source file on which the transformation ends without a fault is reported as unchanged, and
nothing is written, exactly if its text holds no reference. With any reference it is given another
text, whatever the templates and the styles are. -/
theorem transformFile_unchanged_iff {status : FileStatus}
    (ended : (transformFile setting files path).result = .ok status) :
    ∃ source, (Inquiry.readExact setting.charset path).result files = .ok source ∧
      (status = .unchanged ↔ HasNoReference source) ∧
      (StaysUnwritten setting files path ↔ HasNoReference source) ∧
      (¬ HasNoReference source →
        status = .inlined ∧ ∃ text ≠ source, IsRewritten setting files path text) := by
  rcases transformFile_cases setting files path with
    ⟨fault, -, -, failed⟩ | ⟨nothing, -, unchanged⟩ | ⟨_, fault, -, -, failed⟩ |
    ⟨revision, bytes, encoded, left, inlined⟩
  · rw [failed] at ended
    cases ended
  · cases unchanged.symm.trans ended
    obtain ⟨source, read, same⟩ := exists_source_of_none nothing
    have clean : HasNoReference source := (eq_source_iff same).mp rfl
    exact ⟨source, read, iff_of_true rfl clean,
      iff_of_true (staysUnwritten_of_none nothing) clean,
      fun referring => absurd clean referring⟩
  · rw [failed] at ended
    cases ended
  · cases inlined.symm.trans ended
    have referring : ¬ HasNoReference revision.content := fun clean =>
      revision.changed ((eq_source_iff revision.inlined).mpr clean)
    have written : ¬ StaysUnwritten setting files path := fun unwritten => by
      cases revision.result_inlineFile.symm.trans unwritten.asked
    exact ⟨revision.content, revision.contentRead, iff_of_false nofun referring,
      iff_of_false written referring,
      fun _ => ⟨rfl, revision.text, revision.changed, revision.isRewritten encoded left⟩⟩

/-- A component whose template is empty and whose list of styles is, and a file that only speaks of
both. -/
def sparseProject : FileSystem where
  entries :=
    [(["card.ts"], .file (Utf8.encode "templateUrl: 'empty.html', styleUrls: []")),
     (["notes.ts"], .file (Utf8.encode "templateUrl: \"a.html\", styleUrls: 'a.css'")),
     (["empty.html"], .file [])]
  workingDirectory := []

theorem transformFile_unchanged_of_sparseProject :
    (transformFile plainSetting sparseProject (Path.ofText "card.ts")).result = .ok .inlined ∧
      (∃ text ≠ ("templateUrl: 'empty.html', styleUrls: []" : Text),
        IsRewritten plainSetting sparseProject (Path.ofText "card.ts") text) ∧
      (transformFile plainSetting sparseProject (Path.ofText "notes.ts")).result =
        .ok .unchanged ∧
      HasNoReference "templateUrl: \"a.html\", styleUrls: 'a.css'" := by
  have written : (transformFile plainSetting sparseProject (Path.ofText "card.ts")).result =
      .ok .inlined := by decide +kernel
  have spared : (transformFile plainSetting sparseProject (Path.ofText "notes.ts")).result =
      .ok .unchanged := by decide +kernel
  refine ⟨written, ?_, spared, ?_⟩
  · obtain ⟨source, read, unchanged, -, rewritten⟩ := transformFile_unchanged_iff written
    have held : (Inquiry.readExact plainSetting.charset (Path.ofText "card.ts")).result
        sparseProject = .ok "templateUrl: 'empty.html', styleUrls: []" := by decide +kernel
    cases read.symm.trans held
    exact (rewritten fun clean => by cases unchanged.mpr clean).2
  · obtain ⟨source, read, unchanged, -⟩ := transformFile_unchanged_iff spared
    have held : (Inquiry.readExact plainSetting.charset
        (Path.ofText "notes.ts")).result sparseProject =
          .ok "templateUrl: \"a.html\", styleUrls: 'a.css'" := by decide +kernel
    cases read.symm.trans held
    exact unchanged.mp rfl

end Component

end Inlay
