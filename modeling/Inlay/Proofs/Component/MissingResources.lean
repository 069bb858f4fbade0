import Inlay.Proofs.Component.OwnReferences
import Inlay.Proofs.Component.StyleOrder
import Inlay.Proofs.Files.Answers

/-!
# Missing resources

A source that refers to a path without a regular file is not inlined. If all else that it refers
to can be used, the inlining ends as the reading of such a path does: of the first such template,
or else of a style (`exists_result_inlineContent_missing`). The fault says that the resource is
missing exactly if nothing stands where the path leads; a directory there, or a regular file on the
way, is told as the fault of the access (`missing_resource_is_told`). The same holds of each load of
a style that fails, in whatever order the loads finish.
-/

set_option autoImplicit false

namespace Inlay

/-! ## Reading what is not there -/

/-- The name of an encoding that can be passed on: it has no halves of characters and no null
character. -/
def IsPassableName (name : Text) : Prop := ∀ c ∈ name, c.isHalf = false ∧ c ≠ .char '\x00'

/-- How a resource that cannot be accessed is told. -/
def accessFault (path : Path) : AccessFault → Fault
  | .notFound => .resourceNotFound path.text none
  | cause => .access cause path.text

theorem accessFault_eq_resourceNotFound_iff {path : Path} {cause : AccessFault} {text : Text} :
    accessFault path cause = .resourceNotFound text none ↔
      cause = .notFound ∧ text = path.text := by
  cases cause <;> simp [accessFault, eq_comm]

namespace Inquiry

variable {files : FileSystem} {name : Text} {charset : Charset} {path : Path}

theorem result_checkEncodingName_of_passable (passable : IsPassableName name) :
    (checkEncodingName name).result files = .ok () := by
  have whole : Utf8.firstHalves? (fun _ => false) 0 name = none :=
    Utf8.firstHalves?_eq_none_iff.mpr fun c member => by simp [(passable c member).1]
  have unended : ¬ name.contains (.char '\x00') = true := fun holds =>
    (passable _ (List.contains_iff_mem.mp holds)).2 rfl
  unfold checkEncodingName
  rw [whole]
  dsimp only
  rw [if_neg unended]
  rfl

theorem result_checkEncodingName_of_not_passable (files : FileSystem)
    (impassable : ¬ IsPassableName name) :
    (∃ failure, (checkEncodingName name).result files = .error (.encoding failure)) ∨
      (checkEncodingName name).result files = .error (.unreadableEncoding name) := by
  unfold checkEncodingName
  cases halves : Utf8.firstHalves? (fun _ => false) 0 name with
  | some fault => exact .inl ⟨.chars fault, rfl⟩
  | none =>
      by_cases ended : name.contains (.char '\x00') = true
      · dsimp only
        rw [if_pos ended]
        exact .inr rfl
      · refine absurd (fun c member => ⟨?_, ?_⟩) impassable
        · exact Utf8.isWhole_of_firstHalves? halves c member
        · intro same
          exact ended (List.contains_iff_mem.mpr (same ▸ member))

theorem result_readResource_of_passable {cause : AccessFault}
    (passable : IsPassableName charset.name) (failed : files.read path = .error cause) :
    (readResource charset path).result files = .error (accessFault path cause) := by
  unfold readResource
  rw [result_bind, result_checkEncodingName_of_passable passable]
  simp only [result, failed]
  cases cause <;> rfl

/-- Nothing but a file that is not there is told as a missing resource. -/
theorem result_readResource_eq_resourceNotFound_iff {text : Text} :
    (readResource charset path).result files = .error (.resourceNotFound text none) ↔
      IsPassableName charset.name ∧ files.read path = .error .notFound ∧ text = path.text := by
  by_cases passable : IsPassableName charset.name
  · rw [and_iff_right passable]
    cases looked : files.read path with
    | error cause =>
        rw [result_readResource_of_passable passable looked, Except.error.injEq,
          accessFault_eq_resourceNotFound_iff, Except.error.injEq]
    | ok bytes =>
        refine iff_of_false (fun told => ?_) fun none => nomatch none.1
        unfold readResource at told
        rw [result_bind, result_checkEncodingName_of_passable passable] at told
        simp only [result, looked, result_bind, result_ofExcept, Charset.decode] at told
        split at told
        · cases told
        · next fault decoded =>
            cases told
            split at decoded
            · cases decoded
            · next codec _ =>
                cases own : codec.decode bytes <;> simp [own] at decoded
  · refine iff_of_false (fun told => ?_) fun named => passable named.1
    unfold readResource at told
    rw [result_bind] at told
    rcases result_checkEncodingName_of_not_passable files passable with
      ⟨fault, refused⟩ | refused
    all_goals
      rw [refused] at told
      cases told

theorem result_readResource_of_not_isFile (charset : Charset)
    (missing : ¬ files.isFile path = true) :
    ∃ fault, (readResource charset path).result files = .error fault := by
  by_cases passable : IsPassableName charset.name
  · obtain ⟨cause, failed⟩ := FileSystem.read_of_not_isFile missing
    exact ⟨_, result_readResource_of_passable passable failed⟩
  · unfold readResource
    rw [result_bind]
    rcases result_checkEncodingName_of_not_passable files passable with
      ⟨fault, refused⟩ | refused
    · exact ⟨_, by rw [refused]⟩
    · exact ⟨_, by rw [refused]⟩

end Inquiry

/-- How a fault tells of a path without a regular file: as a missing resource exactly if nothing
stands where the path leads, and otherwise as what stands in its way. -/
structure TellsMissing (charset : Charset) (files : FileSystem) (path : Path) (fault : Fault) :
    Prop where
  missing : ¬ files.isFile path = true
  resource : fault = .resourceNotFound path.text none ↔
    IsPassableName charset.name ∧ FileSystem.IsAskable path ∧ files.LeadsToNothing path
  directory : IsPassableName charset.name → files.isDirectory path = true →
    fault = .access .isDirectory path.text
  belowFile : IsPassableName charset.name → FileSystem.IsAskable path →
    files.LeadsBelowFile path → fault = .access .notDirectory path.text

theorem tellsMissing_of_result {charset : Charset} {files : FileSystem} {path : Path}
    {fault : Fault} (missing : ¬ files.isFile path = true)
    (failed : (Inquiry.readResource charset path).result files = .error fault) :
    TellsMissing charset files path fault := by
  have told {cause : AccessFault} (passable : IsPassableName charset.name)
      (unread : files.read path = .error cause) : fault = accessFault path cause := by
    rw [Inquiry.result_readResource_of_passable passable unread] at failed
    exact (Except.error.inj failed).symm
  constructor
  · exact missing
  · have read : fault = .resourceNotFound path.text none ↔
        (Inquiry.readResource charset path).result files =
          .error (.resourceNotFound path.text none) := by
      rw [failed, Except.error.injEq]
    rw [read, Inquiry.result_readResource_eq_resourceNotFound_iff, and_iff_left rfl,
      FileSystem.read_eq_notFound_iff]
  · exact fun passable directory => told passable (FileSystem.read_of_isDirectory directory)
  · exact fun passable askable below =>
      told passable (FileSystem.read_eq_notDirectory_iff.mpr ⟨askable, below⟩)

namespace Component

variable {setting : Setting} {files : FileSystem} {resolve : Text → Path} {source : Text}

/-! ## What a source refers to -/

/-- The paths of the template references of a source, in its order. -/
def templatePaths (source : Text) : List Text :=
  (tokensOf (TemplateReference.scan.pieces source)).map (·.path)

def referredPaths (source : Text) : List Text := templatePaths source ++ listedStyles source

/-- Each file that a source refers to can be used: a template is read, and a style is read and
rendered. Nothing is said of the paths without a file. -/
structure FilesAreUsable (setting : Setting) (files : FileSystem) (resolve : Text → Path)
    (source : Text) : Prop where
  templates : ∀ path ∈ templatePaths source, files.isFile (resolve path) = true →
    ∃ content, (Inquiry.readResource setting.charset (resolve path)).result files =
      .ok content
  styles : ∀ path ∈ listedStyles source, files.isFile (resolve path) = true →
    ∃ body, (loadStyle setting resolve path).result files = .ok body

/-- The templates, if they can be read, do not change which styles are listed. -/
def KeepsStyleList (setting : Setting) (files : FileSystem) (resolve : Text → Path)
    (source : Text) : Prop :=
  TemplatesAreRead files resolve setting.charset source →
    listedStyles (templated files resolve setting.charset source) =
      listedStyles source

/-- The first path of a source, the templates before the styles, without a regular file. -/
def firstMissing? (files : FileSystem) (resolve : Text → Path) (source : Text) : Option Text :=
  (referredPaths source).find? fun path => !files.isFile (resolve path)

theorem result_loadStyle_of_error {path : Text} {fault : Fault}
    (failed : (Inquiry.readResource setting.charset (resolve path)).result files =
      .error fault) :
    (loadStyle setting resolve path).result files = .error fault := by
  unfold loadStyle
  rw [Inquiry.result_bind, Inquiry.result_debug]
  dsimp only
  rw [Inquiry.result_bind, failed]

/-! ## The fault of the first missing path -/

theorem result_inlineTemplates_of_missing {reference : TemplateReference}
    (usable : FilesAreUsable setting files resolve source)
    (first : (tokensOf (TemplateReference.scan.pieces source)).find?
      (fun reference => !files.isFile (resolve reference.path)) = some reference)
    {fault : Fault}
    (failed : (Inquiry.readResource setting.charset (resolve reference.path)).result
      files = .error fault) :
    (inlineTemplates resolve setting.charset source).result files =
      .error fault := by
  obtain ⟨-, before, behind, split, present⟩ := List.find?_eq_some_iff_append.mp first
  refine result_inlineTemplates_of_error split (fun other member => ?_) failed
  refine usable.templates other.path (List.mem_map_of_mem ?_) (by simpa using present other member)
  rw [split]
  exact List.mem_append_left _ member

/-- In order, the first missing style is the one that is told. -/
theorem exists_result_inlineStyles_missing (race : Race) {content first : Text}
    (usable : ∀ other ∈ listedStyles content, files.isFile (resolve other) = true →
      ∃ body, (loadStyle setting resolve other).result files = .ok body)
    (sought : (listedStyles content).find? (fun path => !files.isFile (resolve path)) =
      some first) :
    ∃ told ∈ listedStyles content, ¬ files.isFile (resolve told) = true ∧
      (race = .inOrder → told = first) ∧
      (inlineStyles setting race resolve content).result files =
        (Inquiry.readResource setting.charset (resolve told)).result files := by
  have absent : ¬ files.isFile (resolve first) = true := by simpa using List.find?_some sought
  obtain ⟨fault, unread⟩ := Inquiry.result_readResource_of_not_isFile setting.charset absent
  have failed := result_loadStyle_of_error unread
  obtain ⟨firstListed, before, behind, split, present⟩ :
      first ∈ listedStyles content ∧ ∃ before behind,
        listedStyles content = before ++ first :: behind ∧
          ∀ other ∈ before, files.isFile (resolve other) = true := by
    obtain ⟨-, before, behind, split, present⟩ := List.find?_eq_some_iff_append.mp sought
    exact ⟨List.mem_of_find?_eq_some sought, before, behind, split,
      fun other member => by simpa using present other member⟩
  obtain ⟨_, _, _, found, listed⟩ := exists_listed_of_mem firstListed
  -- The styles fail together as the load of one missing style does.
  obtain ⟨told, member, tellsFirst, together⟩ : ∃ told ∈ listedStyles content,
      (race = .inOrder → told = first) ∧ ∃ fault,
        (loadStyle setting resolve told).result files = .error fault ∧
        (loadStyles setting race resolve (listedStyles content)).result files = .error fault := by
    by_cases inOrder : race = .inOrder
    · refine ⟨first, firstListed, fun _ => rfl, fault, failed, ?_⟩
      rw [inOrder, result_loadStyles, gather_inOrder, split, List.map_append, List.map_cons, failed]
      refine allOf_of_error (fun outcome member => ?_) _
      obtain ⟨other, among, rfl⟩ := List.mem_map.mp member
      exact usable other (split ▸ List.mem_append_left _ among) (present other among)
    · obtain ⟨told, gathered, other, member, own⟩ :=
        exists_result_loadStyles_error race firstListed failed
      exact ⟨other, member, fun same => absurd same inOrder, told, own, gathered⟩
  obtain ⟨toldFault, own, gathered⟩ := together
  have missing : ¬ files.isFile (resolve told) = true := by
    intro file
    obtain ⟨body, loaded⟩ := usable told member file
    cases loaded.symm.trans own
  refine ⟨told, member, missing, tellsFirst, ?_⟩
  obtain ⟨cause, toldUnread⟩ := Inquiry.result_readResource_of_not_isFile setting.charset missing
  cases (result_loadStyle_of_error toldUnread).symm.trans own
  unfold inlineStyles
  rw [found]
  dsimp only
  rw [Inquiry.result_bind, Inquiry.result_ofExcept, listed]
  dsimp only
  rw [Inquiry.result_bind, gathered, toldUnread]

theorem exists_result_inlineContent_missing (race : Race) {first : Text}
    (usable : FilesAreUsable setting files resolve source)
    (keeps : KeepsStyleList setting files resolve source)
    (sought : firstMissing? files resolve source = some first) :
    ∃ told ∈ referredPaths source, ¬ files.isFile (resolve told) = true ∧
      (first ∈ templatePaths source ∨ race = .inOrder → told = first) ∧
      (inlineContent setting race resolve source).result files =
        (Inquiry.readResource setting.charset (resolve told)).result files := by
  have absent : ¬ files.isFile (resolve first) = true := by simpa using List.find?_some sought
  have referred : first ∈ referredPaths source := List.mem_of_find?_eq_some sought
  rw [firstMissing?, referredPaths, List.find?_append, templatePaths, List.find?_map] at sought
  unfold inlineContent
  rw [Inquiry.result_bind]
  cases among : (tokensOf (TemplateReference.scan.pieces source)).find?
      ((fun path => !files.isFile (resolve path)) ∘ (·.path)) with
  | some reference =>
      rw [among] at sought
      cases sought
      obtain ⟨fault, failed⟩ :=
        Inquiry.result_readResource_of_not_isFile setting.charset absent
      refine ⟨_, referred, absent, fun _ => rfl, ?_⟩
      rw [result_inlineTemplates_of_missing usable among failed, failed]
  | none =>
      -- All templates are there, so the styles are those of the templated source.
      rw [among] at sought
      have present : ∀ reference ∈ tokensOf (TemplateReference.scan.pieces source),
          files.isFile (resolve reference.path) = true := by
        intro reference member
        simpa using List.find?_eq_none.mp among reference member
      have read : TemplatesAreRead files resolve setting.charset source := fun reference member =>
        usable.templates reference.path (List.mem_map_of_mem member) (present reference member)
      have untemplated : first ∉ templatePaths source := by
        intro member
        obtain ⟨reference, used, rfl⟩ := List.mem_map.mp member
        exact absent (present reference used)
      have same := keeps read
      rw [result_inlineTemplates_of_read read]
      obtain ⟨told, member, missing, inOrder, result⟩ :=
        exists_result_inlineStyles_missing race (by rw [same]; exact usable.styles)
          (by rw [same]; exact sought)
      rw [same] at member
      exact ⟨told, List.mem_append_right _ member, missing,
        fun early => inOrder (early.resolve_left untemplated), result⟩

/-- A load of a style that fails is one of a path without a regular file. -/
theorem FilesAreUsable.tellsMissing {path : Text} {fault : Fault}
    (usable : FilesAreUsable setting files resolve source) (listed : path ∈ listedStyles source)
    (failed : (loadStyle setting resolve path).result files = .error fault) :
    TellsMissing setting.charset files (resolve path) fault := by
  have missing : ¬ files.isFile (resolve path) = true := by
    intro file
    obtain ⟨body, loaded⟩ := usable.styles path listed file
    cases loaded.symm.trans failed
  obtain ⟨cause, unread⟩ :=
    Inquiry.result_readResource_of_not_isFile setting.charset missing
  cases (result_loadStyle_of_error unread).symm.trans failed
  exact tellsMissing_of_result missing unread

/-- If a path of a source leads to no regular file, and all else that the source refers to can be
used, then the source is not inlined. The fault is that of the first such template. If all templates
are there, it is that of such a style, of whichever one the load fails first. -/
theorem missing_resource_is_told (race : Race)
    (usable : FilesAreUsable setting files resolve source)
    (keeps : KeepsStyleList setting files resolve source)
    (missing : ∃ path ∈ referredPaths source, ¬ files.isFile (resolve path) = true) :
    ∃ first told fault, firstMissing? files resolve source = some first ∧
      (inlineContent setting race resolve source).result files = .error fault ∧
      told ∈ referredPaths source ∧ TellsMissing setting.charset files (resolve told) fault ∧
      (first ∈ templatePaths source ∨ race = .inOrder → told = first) ∧
      ∀ order outcomes, LoadsFinish setting files resolve (listedStyles source) order outcomes →
        ∀ position told, outcomes position = .error told →
          TellsMissing setting.charset files
            (resolve (listedStyles source)[position]) told := by
  have some : firstMissing? files resolve source ≠ none := by
    obtain ⟨path, member, absent⟩ := missing
    exact fun none => List.find?_eq_none.mp none path member (by simpa using absent)
  obtain ⟨first, found⟩ := Option.ne_none_iff_exists'.mp some
  obtain ⟨told, referred, absent, tellsFirst, result⟩ :=
    exists_result_inlineContent_missing race usable keeps found
  obtain ⟨fault, failed⟩ :=
    Inquiry.result_readResource_of_not_isFile setting.charset absent
  refine ⟨first, told, fault, found, result.trans failed, referred,
    tellsMissing_of_result absent failed, tellsFirst,
    fun order outcomes finish position own ended => ?_⟩
  rw [(loadsFinish_iff.mp finish).2] at ended
  exact usable.tellsMissing (List.getElem_mem _) ended

/-- A component that lists a style which is there, one which is not, and one below a file. -/
def gappySource : Text := "templateUrl: 'a.html', styleUrls: ['b.css', 'gone.css', 'b.css/c.css']"

def gappyProject : FileSystem where
  entries :=
    [(["a.html"], .file (Utf8.encode "<p>")), (["b.css"], .file (Utf8.encode "p")),
     (["old.html"], .directory)]
  workingDirectory := []

theorem missing_resource_is_told_of_gappyProject :
    firstMissing? gappyProject Path.ofText gappySource = some "gone.css" ∧
      (inlineContent plainSetting Race.inOrder Path.ofText gappySource).result gappyProject =
        .error (.resourceNotFound "gone.css" none) := by
  have templates : templatePaths gappySource = (["a.html"] : List Text) := by decide +kernel
  have styles : listedStyles gappySource = (["b.css", "gone.css", "b.css/c.css"] : List Text) := by
    decide +kernel
  have usable : FilesAreUsable plainSetting gappyProject Path.ofText gappySource := by
    refine ⟨fun path member _ => ?_, fun path member file => ?_⟩
    · rw [templates, List.mem_singleton] at member
      cases member
      exact ⟨"<p>", by decide +kernel⟩
    · simp only [styles, List.mem_cons, List.not_mem_nil, or_false] at member
      rcases member with rfl | rfl | rfl
      · exact ⟨"p", by decide +kernel⟩
      all_goals exact absurd file (by decide +kernel)
  have keeps : KeepsStyleList plainSetting gappyProject Path.ofText gappySource :=
    fun _ => by decide +kernel
  have missing : ∃ path ∈ referredPaths gappySource,
      ¬ gappyProject.isFile (Path.ofText path) = true :=
    ⟨"gone.css", by decide +kernel, by decide +kernel⟩
  obtain ⟨first, told, fault, found, failed, -, tells, inOrder, -⟩ :=
    missing_resource_is_told .inOrder usable keeps missing
  have gone : firstMissing? gappyProject Path.ofText gappySource = some "gone.css" := by
    decide +kernel
  cases found.symm.trans gone
  cases inOrder (.inr rfl)
  refine ⟨gone, failed.trans (congrArg _ (tells.resource.mpr ⟨?_, ?_, ?_⟩))⟩
  · unfold IsPassableName
    decide +kernel
  · exact ⟨by decide +kernel, by decide +kernel⟩
  · exact ⟨["gone.css"], [], ["gone.css"], by decide +kernel, by decide +kernel, by decide +kernel⟩

/-- A template that is a directory is no regular file, and is not told as missing. -/
theorem missing_resource_may_be_told_otherwise :
    ¬ ∀ (setting : Setting) (race : Race) (files : FileSystem) (resolve : Text → Path)
      (source : Text), FilesAreUsable setting files resolve source →
      (∃ path ∈ referredPaths source, ¬ files.isFile (resolve path) = true) →
      ∃ path, (inlineContent setting race resolve source).result files =
        .error (.resourceNotFound (resolve path).text none) := by
  intro tells
  have templates : templatePaths "templateUrl: 'old.html'" = (["old.html"] : List Text) := by
    decide +kernel
  have styles : listedStyles "templateUrl: 'old.html'" = [] := by decide +kernel
  have usable : FilesAreUsable plainSetting gappyProject Path.ofText
      "templateUrl: 'old.html'" := by
    refine ⟨fun path member file => ?_, fun path member => ?_⟩
    · rw [templates, List.mem_singleton] at member
      cases member
      exact absurd file (by decide +kernel)
    · rw [styles] at member
      cases member
  obtain ⟨path, told⟩ := tells plainSetting Race.inOrder gappyProject Path.ofText _ usable
    ⟨"old.html", by decide +kernel, by decide +kernel⟩
  have directory :
      (inlineContent plainSetting Race.inOrder Path.ofText "templateUrl: 'old.html'").result
        gappyProject = .error (.access .isDirectory "old.html") := by decide +kernel
  cases told.symm.trans directory

end Component

end Inlay
