import Inlay.Proofs.Component.Loading
import Inlay.Proofs.Component.OwnReferences
import Inlay.Proofs.Component.Revision
import Inlay.Proofs.Files.Answers

/-!
# Line ends do not matter

A literal body does not tell how the lines of its text ended. Templates and stylesheets are read
with their line breaks unified, so that a component inlines to the same text from files that differ
in line ends only.
-/

set_option autoImplicit false

namespace Inlay

theorem collapseFrom_unifyLineBreaks (inBreak : Bool) (text : Text) :
    collapseFrom inBreak (unifyLineBreaks text) = collapseFrom inBreak text := by
  fun_induction unifyLineBreaks text generalizing inBreak with
  | case1 => rfl
  | case2 text ih => cases inBreak <;> simp [collapseFrom, isLineBreak, ih]
  | case3 text _ ih => cases inBreak <;> simp [collapseFrom, isLineBreak, ih]
  | case4 c text _ _ ih => simp [collapseFrom, ih]

theorem literalBody_unifyLineBreaks (text : Text) :
    literalBody (unifyLineBreaks text) = literalBody text :=
  congrArg escapeQuotes (collapseFrom_unifyLineBreaks false text)

/-!
## Inquiries that end alike on two file systems
-/

namespace Inquiry

variable {α β : Type} {files other : FileSystem}

/-- An inquiry ends with the same value on two file systems, or fails on both. -/
def AgreesOn (files other : FileSystem) (inquiry : Inquiry α) : Prop :=
  ∀ value, inquiry.result files = .ok value ↔ inquiry.result other = .ok value

theorem result_bind_eq_ok_iff {inquiry : Inquiry α} {next : α → Inquiry β} {value : β} :
    (inquiry >>= next).result files = .ok value ↔
      ∃ first, inquiry.result files = .ok first ∧ (next first).result files = .ok value := by
  rw [result_bind]
  cases inquiry.result files <;> simp

theorem AgreesOn.bind {inquiry : Inquiry α} {next : α → Inquiry β}
    (first : inquiry.AgreesOn files other) (later : ∀ value, (next value).AgreesOn files other) :
    (inquiry >>= next).AgreesOn files other := by
  intro value
  rw [result_bind_eq_ok_iff, result_bind_eq_ok_iff]
  exact exists_congr fun middle => and_congr (first middle) (later middle value)

theorem agreesOn_of_result_eq {inquiry : Inquiry α}
    (same : inquiry.result files = inquiry.result other) : inquiry.AgreesOn files other :=
  fun _ => by rw [same]

theorem agreesOn_pure (value : α) : (pure value : Inquiry α).AgreesOn files other :=
  agreesOn_of_result_eq rfl

theorem agreesOn_fail (fault : Fault) : (fail fault : Inquiry α).AgreesOn files other :=
  agreesOn_of_result_eq rfl

theorem agreesOn_debug (channel : Channel) (message : Text) :
    (debug channel message).AgreesOn files other :=
  agreesOn_of_result_eq rfl

theorem agreesOn_ofExcept (outcome : Except Fault α) : (ofExcept outcome).AgreesOn files other :=
  agreesOn_of_result_eq (by rw [result_ofExcept, result_ofExcept])

theorem AgreesOn.probe {path : Path} {next : Except AccessFault Bool → Inquiry α}
    (same : other.probeFile path = files.probeFile path)
    (later : ∀ answer, (next answer).AgreesOn files other) :
    (Inquiry.probe path next).AgreesOn files other := by
  intro value
  simp only [result, same]
  exact later _ value

theorem agreesOn_forEach {inquiry : α → Inquiry β}
    (each : ∀ element, (inquiry element).AgreesOn files other) (elements : List α) :
    (forEach inquiry elements).AgreesOn files other := by
  intro values
  rw [result_forEach_eq_ok_iff, result_forEach_eq_ok_iff]
  constructor
  · exact List.Forall₂.imp fun element value => (each element value).mp
  · exact List.Forall₂.imp fun element value => (each element value).mpr

/-!
## Files that differ in line ends
-/

/-- The text of a file in an encoding, with its line breaks unified. -/
def linesOf? (charset : Charset) (bytes : Bytes) : Option Text :=
  (charset.decode bytes).toOption.map unifyLineBreaks

end Inquiry

open Inquiry (linesOf?)

/-- What stands at a location in both file systems: the same, or two files with the same lines. -/
inductive EntriesAlike (charsets : List Charset) : Option Entry → Option Entry → Prop where
  | same (entry : Option Entry) : EntriesAlike charsets entry entry
  | file {bytes other : Bytes} :
      (∀ charset ∈ charsets, linesOf? charset bytes = linesOf? charset other) →
      EntriesAlike charsets (some (.file bytes)) (some (.file other))

namespace EntriesAlike

variable {charsets : List Charset} {entry other : Option Entry}

theorem symm (alike : EntriesAlike charsets entry other) : EntriesAlike charsets other entry := by
  cases alike with
  | same => exact .same _
  | file lines => exact .file fun charset member => (lines charset member).symm

theorem directory_iff (alike : EntriesAlike charsets entry other) :
    other = some .directory ↔ entry = some .directory := by
  cases alike with
  | same => rfl
  | file => simp

theorem exists_file {bytes : Bytes} (alike : EntriesAlike charsets (some (.file bytes)) other) :
    ∃ otherBytes, other = some (.file otherBytes) ∧
      ∀ charset ∈ charsets, linesOf? charset bytes = linesOf? charset otherBytes := by
  cases alike with
  | same => exact ⟨bytes, rfl, fun _ _ => rfl⟩
  | file lines => exact ⟨_, rfl, lines⟩

end EntriesAlike

/-- The file systems differ in the line ends of files only, as they are read in the given
encodings. -/
structure DiffersInLineEnds (charsets : List Charset) (files other : FileSystem) : Prop where
  workingDirectory : other.workingDirectory = files.workingDirectory
  entries : ∀ location, EntriesAlike charsets (files.find? location) (other.find? location)

namespace DiffersInLineEnds

variable {charsets : List Charset} {files other : FileSystem}

theorem symm (differs : DiffersInLineEnds charsets files other) :
    DiffersInLineEnds charsets other files :=
  ⟨differs.workingDirectory.symm, fun location => (differs.entries location).symm⟩

theorem shares (differs : DiffersInLineEnds charsets files other) :
    files.SharesDirectories other :=
  ⟨differs.workingDirectory, fun location => (differs.entries location).directory_iff⟩

theorem exists_file (differs : DiffersInLineEnds charsets files other) {location : Location}
    {bytes : Bytes} (found : files.find? location = some (.file bytes)) :
    ∃ otherBytes, other.find? location = some (.file otherBytes) ∧
      ∀ charset ∈ charsets, linesOf? charset bytes = linesOf? charset otherBytes :=
  EntriesAlike.exists_file (found ▸ differs.entries location)

theorem holdsFile (differs : DiffersInLineEnds charsets files other) {location : Location}
    (holds : files.HoldsFile location) : other.HoldsFile location := by
  obtain ⟨bytes, found⟩ := holds
  obtain ⟨otherBytes, stands, _⟩ := differs.exists_file found
  exact ⟨otherBytes, stands⟩

theorem probeFile_eq (differs : DiffersInLineEnds charsets files other) (path : Path) :
    other.probeFile path = files.probeFile path :=
  differs.shares.probeFile_eq fun _ _ => ⟨differs.symm.holdsFile, differs.holdsFile⟩

theorem exists_read (differs : DiffersInLineEnds charsets files other) {path : Path} {bytes : Bytes}
    (read : files.read path = .ok bytes) :
    ∃ otherBytes, other.read path = .ok otherBytes ∧
      ∀ charset ∈ charsets, linesOf? charset bytes = linesOf? charset otherBytes := by
  obtain ⟨location, located, found⟩ := FileSystem.read_eq_ok_iff.mp read
  have otherLocated : other.locate path = .ok location := by
    rcases differs.shares.locate path with same | ⟨_, _, failed, _⟩
    · rw [same, located]
    · rw [located] at failed
      cases failed
  obtain ⟨otherBytes, stands, lines⟩ := differs.exists_file found
  exact ⟨otherBytes, FileSystem.read_eq_ok_iff.mpr ⟨location, otherLocated, stands⟩, lines⟩

/-- Entries that are alike in their order make file systems that differ in line ends only. -/
theorem of_entries {workingDirectory : Location} {entries others : List (Location × Entry)}
    (alike : List.Forall₂ (fun entry other => other.1 = entry.1 ∧
      EntriesAlike charsets (some entry.2) (some other.2)) entries others) :
    DiffersInLineEnds charsets ⟨entries, workingDirectory⟩ ⟨others, workingDirectory⟩ := by
  refine ⟨rfl, fun location => ?_⟩
  unfold FileSystem.find?
  split
  · exact .same _
  · induction alike with
    | nil => exact .same none
    | @cons entry other _ _ first _ ih =>
        obtain ⟨place, contents⟩ := first
        have together : FileSystem.standsAt location other = FileSystem.standsAt location entry :=
          congrArg (FileSystem.sameLocation · location) place
        rw [List.find?_cons, List.find?_cons, together]
        split
        · exact contents
        · exact ih

end DiffersInLineEnds

namespace Inquiry

variable {charset : Charset} {text : Text} {charsets : List Charset} {files other : FileSystem}
  {path : Path}

theorem linesOf?_eq_some_iff {bytes : Bytes} :
    linesOf? charset bytes = some text ↔
      ∃ exact, charset.decode bytes = .ok exact ∧ unifyLineBreaks exact = text := by
  unfold linesOf?
  cases charset.decode bytes <;> simp [Except.toOption]

theorem result_readUnified_eq_ok_iff :
    (readUnified charset path).result files = .ok text ↔
      (checkEncodingName charset.name).result files = .ok () ∧
        ∃ bytes, files.read path = .ok bytes ∧ linesOf? charset bytes = some text := by
  unfold readUnified readExact
  rw [result_bind, result_bind]
  cases (checkEncodingName charset.name).result files with
  | error fault => simp
  | ok accepted =>
      simp only [result, true_and, linesOf?_eq_some_iff]
      cases files.read path with
      | error fault => simp [result]
      | ok bytes =>
          simp only [result_ofExcept, Except.ok.injEq, exists_eq_left']
          cases charset.decode bytes <;> simp

theorem result_readResource_eq_ok_iff :
    (readResource charset path).result files = .ok text ↔
      (checkEncodingName charset.name).result files = .ok () ∧
        ∃ bytes, files.read path = .ok bytes ∧ linesOf? charset bytes = some text := by
  unfold readResource
  rw [result_bind]
  cases (checkEncodingName charset.name).result files with
  | error fault => simp
  | ok accepted =>
      simp only [result, true_and, linesOf?_eq_some_iff]
      cases files.read path with
      | error fault => cases fault <;> simp [result]
      | ok bytes =>
          simp only [result_bind, result_ofExcept, Except.ok.injEq, exists_eq_left']
          cases charset.decode bytes <;> simp

end Inquiry

namespace DiffersInLineEnds

variable {charset : Charset} {charsets : List Charset} {files other : FileSystem}

theorem lines_read_iff (differs : DiffersInLineEnds charsets files other)
    (member : charset ∈ charsets) (path : Path) (text : Text) :
    (∃ bytes, files.read path = .ok bytes ∧ linesOf? charset bytes = some text) ↔
      ∃ bytes, other.read path = .ok bytes ∧ linesOf? charset bytes = some text := by
  constructor
  · intro ⟨bytes, read, lines⟩
    obtain ⟨otherBytes, otherRead, same⟩ := differs.exists_read read
    exact ⟨otherBytes, otherRead, (same charset member).symm.trans lines⟩
  · intro ⟨bytes, read, lines⟩
    obtain ⟨otherBytes, otherRead, same⟩ := differs.symm.exists_read read
    exact ⟨otherBytes, otherRead, (same charset member).symm.trans lines⟩

theorem agreesOn_readUnified (differs : DiffersInLineEnds charsets files other)
    (member : charset ∈ charsets) (path : Path) :
    (Inquiry.readUnified charset path).AgreesOn files other := by
  intro text
  rw [Inquiry.result_readUnified_eq_ok_iff, Inquiry.result_readUnified_eq_ok_iff,
    Inquiry.result_checkEncodingName files other]
  exact and_congr_right fun _ => differs.lines_read_iff member path text

theorem agreesOn_readResource (differs : DiffersInLineEnds charsets files other)
    (member : charset ∈ charsets) (path : Path) :
    (Inquiry.readResource charset path).AgreesOn files other := by
  intro text
  rw [Inquiry.result_readResource_eq_ok_iff, Inquiry.result_readResource_eq_ok_iff,
    Inquiry.result_checkEncodingName files other]
  exact and_congr_right fun _ => differs.lines_read_iff member path text

end DiffersInLineEnds

/-!
## Expansions
-/

namespace Stylesheet

open Inquiry

variable {charsets : List Charset} {files other : FileSystem} {context : StyleContext}

theorem agreesOn_firstFile? (differs : DiffersInLineEnds charsets files other) (paths : List Path) :
    (firstFile? paths).AgreesOn files other := by
  induction paths with
  | nil => exact agreesOn_pure none
  | cons path paths ih =>
      refine .probe (differs.probeFile_eq path) fun answer => ?_
      cases answer with
      | error fault => exact agreesOn_fail _
      | ok found =>
          cases found with
          | true => exact agreesOn_pure _
          | false => exact ih

theorem agreesOn_searchIn (differs : DiffersInLineEnds charsets files other)
    (resolve : Path → Path) (reference : Text) (directories : List Path) :
    (searchIn resolve reference directories).AgreesOn files other := by
  induction directories with
  | nil => exact agreesOn_pure none
  | cons directory directories ih =>
      unfold searchIn
      dsimp only
      cases candidates? (directory.join (Path.ofText reference)) with
      | none => exact agreesOn_fail _
      | some paths =>
          refine (agreesOn_firstFile? differs paths).bind fun outcome => ?_
          cases outcome with
          | none => exact ih
          | some found => exact agreesOn_pure _

theorem agreesOn_resolveImport (differs : DiffersInLineEnds charsets files other)
    (workingDirectory : Location) (options : StyleOptions) (reference : Text) (importer : Path) :
    (resolveImport workingDirectory options reference importer).AgreesOn files other := by
  unfold resolveImport resolvePackage
  split
  · split
    · exact agreesOn_fail _
    · exact agreesOn_searchIn differs _ _ _
  · exact agreesOn_searchIn differs _ _ _

variable {visit : Visit}

theorem agreesOn_importContent
    (visited : ∀ placement path text progress,
      (visit placement path text progress).AgreesOn files other)
    (placement : Placement) (options : List Text) (file : Path) (text : Text)
    (progress : Progress) :
    (importContent visit placement options file text progress).AgreesOn files other := by
  unfold importContent
  split
  · exact (visited _ _ _ _).bind fun _ => agreesOn_pure _
  · split
    · exact agreesOn_pure _
    · exact visited _ _ _ _

theorem agreesOn_expandStatement (differs : DiffersInLineEnds charsets files other)
    (unicode : Charset.utf8 ∈ charsets)
    (visited : ∀ placement path text progress,
      (visit placement path text progress).AgreesOn files other)
    (placement : Placement) (file : Text) (statement : ImportStatement) (progress : Progress) :
    (expandStatement context visit placement file statement progress).AgreesOn files other := by
  unfold expandStatement
  dsimp only
  split
  · exact agreesOn_pure _
  · refine (agreesOn_resolveImport differs _ _ _ _).bind fun resolved => ?_
    cases resolved with
    | none =>
        dsimp only
        split
        · exact (agreesOn_debug _ _).bind fun _ => agreesOn_pure _
        · exact agreesOn_fail _
    | some found =>
        dsimp only
        split
        · exact agreesOn_pure _
        · refine (agreesOn_debug _ _).bind fun _ => ?_
          refine (differs.agreesOn_readUnified unicode found).bind fun text => ?_
          exact (agreesOn_importContent visited _ _ _ _ _).bind fun _ => agreesOn_pure _

theorem agreesOn_expandTokens {placement : Placement} {file : Text}
    (each : ∀ statement progress,
      (expandStatement context visit placement file statement progress).AgreesOn files other)
    (tokens : List SheetToken) (progress : Progress) :
    (expandTokens context visit placement file tokens progress).AgreesOn files other := by
  induction tokens generalizing progress with
  | nil => exact agreesOn_pure _
  | cons token tokens ih =>
      cases token with
      | inert token => exact (ih progress).bind fun _ => agreesOn_pure _
      | importing statement =>
          refine (each statement progress).bind fun image => ?_
          exact (ih image.2).bind fun _ => agreesOn_pure _

theorem agreesOn_expandLevel (differs : DiffersInLineEnds charsets files other)
    (unicode : Charset.utf8 ∈ charsets) (levels : Nat) (placement : Placement)
    (file text : Text) (progress : Progress) :
    (expandLevel context levels placement file text progress).AgreesOn files other := by
  induction levels generalizing placement file text progress with
  | zero => exact agreesOn_fail _
  | succ levels ih =>
      have below : ∀ placement (path : Path) text progress,
          (expandLevel context levels placement path.text text progress).AgreesOn files other :=
        fun placement path => ih placement path.text
      refine (agreesOn_expandTokens ?_ _ progress).bind fun _ => agreesOn_pure _
      exact agreesOn_expandStatement differs unicode below placement file

theorem agreesOn_render (differs : DiffersInLineEnds charsets files other)
    (unicode : Charset.utf8 ∈ charsets) (file text : Text) :
    (render context file text).AgreesOn files other := by
  unfold render compileSource expand
  split
  · refine (agreesOn_debug _ _).bind fun _ => ?_
    dsimp only
    split
    · exact agreesOn_fail _
    · exact (agreesOn_expandLevel differs unicode _ _ _ _ _).bind fun _ => agreesOn_ofExcept _
  · exact agreesOn_pure _

end Stylesheet

/-!
## Components
-/

namespace Component

open Inquiry

variable {charsets : List Charset} {files other : FileSystem} {setting : Setting}

theorem agreesOn_inlineTemplates (differs : DiffersInLineEnds charsets files other)
    {charset : Charset} (member : charset ∈ charsets) (resolve : Text → Path)
    (content : Text) : (inlineTemplates resolve charset content).AgreesOn files other := by
  refine (agreesOn_forEach (fun reference => ?_) _).bind fun _ => agreesOn_pure _
  refine (agreesOn_debug _ _).bind fun _ => ?_
  exact (differs.agreesOn_readResource member _).bind fun _ => agreesOn_pure _

theorem agreesOn_loadStyle (differs : DiffersInLineEnds charsets files other)
    (member : setting.charset ∈ charsets) (unicode : Charset.utf8 ∈ charsets)
    (resolve : Text → Path) (path : Text) :
    (loadStyle setting resolve path).AgreesOn files other := by
  refine (agreesOn_debug _ _).bind fun _ => ?_
  refine (differs.agreesOn_readResource member _).bind fun raw => ?_
  exact (Stylesheet.agreesOn_render differs unicode _ raw).bind fun _ => agreesOn_pure _

theorem agreesOn_loadStyles (differs : DiffersInLineEnds charsets files other)
    (member : setting.charset ∈ charsets) (unicode : Charset.utf8 ∈ charsets)
    (race : Race) (resolve : Text → Path) (paths : List Text) :
    (loadStyles setting race resolve paths).AgreesOn files other := by
  intro bodies
  have each := fun path => agreesOn_loadStyle differs member unicode resolve path
  rw [result_loadStyles_eq_ok_iff, result_loadStyles_eq_ok_iff]
  constructor
  · exact List.Forall₂.imp fun path body => (each path body).mp
  · exact List.Forall₂.imp fun path body => (each path body).mpr

theorem agreesOn_inlineStyles (differs : DiffersInLineEnds charsets files other)
    (member : setting.charset ∈ charsets) (unicode : Charset.utf8 ∈ charsets)
    (race : Race) (resolve : Text → Path) (content : Text) :
    (inlineStyles setting race resolve content).AgreesOn files other := by
  unfold inlineStyles
  split
  · exact agreesOn_pure _
  · refine (agreesOn_ofExcept _).bind fun paths => ?_
    exact (agreesOn_loadStyles differs member unicode race resolve paths).bind fun _ =>
      agreesOn_pure _

/-- Texts that are the same but for their line ends have the same body. Components inline to the
same text, or fail both, where templates, stylesheets and the files that these import differ in
line ends only: in the encoding of the setting, and in the one that imported files are read in. -/
theorem line_ends_are_immaterial :
    (∀ text other : Text, unifyLineBreaks text = unifyLineBreaks other →
      literalBody text = literalBody other) ∧
    ∀ (setting : Setting) (race : Race) (resolve : Text → Path) (content : Text)
        (files other : FileSystem),
      DiffersInLineEnds [setting.charset, .utf8] files other →
      ∀ inlined, (inlineContent setting race resolve content).result files = .ok inlined ↔
        (inlineContent setting race resolve content).result other = .ok inlined := by
  constructor
  · intro text other same
    rw [← literalBody_unifyLineBreaks text, same, literalBody_unifyLineBreaks]
  · intro setting race resolve content files other differs
    have member : setting.charset ∈ [setting.charset, .utf8] := .head _
    have unicode : Charset.utf8 ∈ [setting.charset, .utf8] :=
      .tail _ (.head _)
    exact (agreesOn_inlineTemplates differs member resolve content).bind fun templated =>
      agreesOn_inlineStyles differs member unicode race resolve templated

/-- A template, a stylesheet, and a file that it imports, with lines that end in the given way. -/
def pageProject (lineEnd : Text) : FileSystem where
  entries :=
    [(["a.html"], .file (Utf8.encode ("<p>" ++ lineEnd ++ " x" ++ lineEnd ++ "</p>"))),
     (["b.less"], .file (Utf8.encode ("@import 'c';" ++ lineEnd ++ "b"))),
     (["c.less"], .file (Utf8.encode ("c" ++ lineEnd)))]
  workingDirectory := []

def pageSource : Text := "templateUrl: 'a.html', styleUrls: ['b.less']"

def inlinedPage : Text := "template: \"<p> x </p>\", styles: ['c b']"

theorem line_ends_are_immaterial_in_pageProject :
    (unifyLineBreaks "a\r\n\r b\n" = unifyLineBreaks "a\n\n b\r" ∧
      literalBody "a\r\n\r b\n" = literalBody "a\n\n b\r") ∧
    DiffersInLineEnds [.utf8, .utf8] (pageProject "\n") (pageProject "\r\n") ∧
      (inlineContent plainSetting Race.inOrder Path.ofText pageSource).result (pageProject "\n") =
        .ok inlinedPage ∧
      (inlineContent plainSetting Race.inOrder Path.ofText pageSource).result (pageProject "\r\n") =
        .ok inlinedPage := by
  have alike : unifyLineBreaks "a\r\n\r b\n" = unifyLineBreaks "a\n\n b\r" := by decide
  have differs :
      DiffersInLineEnds [.utf8, .utf8] (pageProject "\n") (pageProject "\r\n") := by
    refine .of_entries (.cons ⟨rfl, .file ?_⟩ (.cons ⟨rfl, .file ?_⟩ (.cons ⟨rfl, .file ?_⟩ .nil)))
    all_goals decide +kernel
  have inlined : (inlineContent plainSetting Race.inOrder Path.ofText pageSource).result
      (pageProject "\n") = .ok inlinedPage := by decide +kernel
  exact ⟨⟨alike, line_ends_are_immaterial.1 _ _ alike⟩, differs, inlined,
    (line_ends_are_immaterial.2 plainSetting _ _ pageSource _ _ differs inlinedPage).mp inlined⟩

end Component

end Inlay
