import Inlay.Proofs.Stylesheet.Lookup
import Inlay.Proofs.Stylesheet.Nesting
import Inlay.Stylesheet.Render

/-!
# Faults of a rendering

Whatever stops a rendering should be told as a fault of the stylesheet. A few faults stray from
this: that of an entry whose name cannot be resolved, that of a reference which leads to a path
without a name, and that of a path which is too long to be asked for or read. `Strays` follows an
expansion to such a place, and no other fault escapes (`render_fault_iff`).
-/

set_option autoImplicit false

namespace Inlay.Stylesheet

variable {context : StyleContext} {files : FileSystem} {fault : Fault}

/-! ## Reading -/

/-- Files that a style context fits, and that can all be there and be read as texts. -/
structure HasSoundFiles (context : StyleContext) (files : FileSystem) : Prop where
  fits : context.Fits files
  sound : files.IsSound
  utf8 : files.HoldsUtf8

/-- A file that an import leads to can be read unless its absolute path is too long. -/
theorem HasSoundFiles.result_readUnified (grounded : HasSoundFiles context files) {file : Text}
    {statement : ImportStatement} {found : Path}
    (leads : importTarget context files file statement = .ok (.file found)) :
    (Inquiry.readUnified .utf8 found).result files = .error fault ↔
      FileSystem.isLonger FileSystem.longestPath found.text = true ∧
        fault = .access .nameTooLong found.text := by
  obtain ⟨_, _, location, bytes, _, stands, rfl⟩ :=
    importTarget_file_location grounded.fits leads
  have named : (Inquiry.checkEncodingName Charset.utf8.name).result files = .ok () := rfl
  obtain ⟨text, decoded⟩ := grounded.utf8 stands
  have ofBytes : Charset.utf8.decode bytes = .ok text := by
    simp only [Charset.decode, Charset.utf8, Encoding.codec, Encoding.decode, decoded,
      Encoding.ofBytes, mapError_ok]
  have read := grounded.sound.read_of_find?_file stands
  simp only [Inquiry.readUnified, Inquiry.readExact, Inquiry.result_bind, named, Inquiry.result,
    read]
  by_cases long : FileSystem.isLonger FileSystem.longestPath (Path.text ⟨.root, location⟩) = true
  · simp [long, Inquiry.result, eq_comm]
  · simp [long, ofBytes]

theorem HasSoundFiles.refusal?_found (grounded : HasSoundFiles context files) {file : Text}
    {statement : ImportStatement} {found : Path}
    (leads : importTarget context files file statement = .ok (.file found)) :
    (Path.ofText found.text).refusal? = none := by
  obtain ⟨_, _, location, bytes, _, stands, rfl⟩ :=
    importTarget_file_location grounded.fits leads
  exact refusal?_ofText_of_nameable (grounded.sound.nameable_text stands)

/-! ## Straying -/

/-- The placement under which the file that a statement names is expanded. -/
def innerPlacement (statement : ImportStatement) (placement : Placement) : Placement :=
  if statement.options.contains "reference" then .inPlace else placement

theorem innerPlacement_of_reference {placement : Placement} {statement : ImportStatement}
    (named : statement.options.contains "reference" = true) :
    innerPlacement statement placement = .inPlace := if_pos named

theorem innerPlacement_of_not_reference {placement : Placement} {statement : ImportStatement}
    (unnamed : statement.options.contains "reference" = false) :
    innerPlacement statement placement = placement := by
  rw [innerPlacement, unnamed, if_neg Bool.false_ne_true]

theorem contentResult_of_isFollowed {placement : Placement} {statement : ImportStatement}
    {visited : Placement → Path → Text → Progress → Except Fault Expansion} {found : Path}
    {text : Text} {progress : Progress} (follows : statement.isFollowed = true)
    (failed : visited (innerPlacement statement placement) found text progress = .error fault) :
    contentResult visited placement statement.options found text progress = .error fault := by
  unfold innerPlacement at failed
  unfold contentResult
  by_cases named : statement.options.contains "reference" = true
  · rw [if_pos named] at failed ⊢
    rw [failed]
    rfl
  · rw [if_neg named] at failed ⊢
    simp only [ImportStatement.isFollowed, named, Bool.false_or, Bool.not_eq_true'] at follows
    rwa [follows, if_neg Bool.false_ne_true]

/-- An expansion comes to an import whose reference cannot be looked for, or to one whose file is
not passed over and has an absolute path that is too long to be read. What stands before it is
expanded; what stands behind it makes no difference. -/
inductive Strays (context : StyleContext) (files : FileSystem) :
    (opened : List Path) → Placement → (file : Text) → Matter → Progress → Fault → Prop where
  | lookup {opened : List Path} {placement : Placement} {file : Text} {progress : Progress}
      {statement : ImportStatement} {fault : Fault} :
      LookupStrays context files file statement fault →
      Strays context files opened placement file (.importing statement) progress fault
  | tooLong {opened : List Path} {placement : Placement} {file : Text} {progress : Progress}
      {statement : ImportStatement} {found : Path} :
      importTarget context files file statement = .ok (.file found) →
      statement.asksAgain = true ∨ progress.hasSeen found = false →
      FileSystem.isLonger FileSystem.longestPath found.text = true →
      Strays context files opened placement file (.importing statement) progress
        (.access .nameTooLong found.text)
  | inside {opened : List Path} {placement : Placement} {file : Text} {progress : Progress}
      {statement : ImportStatement} {found : Path} {text : Text} {fault : Fault} :
      importTarget context files file statement = .ok (.file found) →
      statement.asksAgain = true ∨ progress.hasSeen found = false →
      (Inquiry.readUnified .utf8 found).result files = .ok text →
      statement.isFollowed = true →
      Strays context files (found :: opened) (innerPlacement statement placement) found.text
        (.whole text) (progress.addFile found statement.asksAgain) fault →
      Strays context files opened placement file (.importing statement) progress fault
  | whole {opened : List Path} {placement : Placement} {file text : Text} {progress : Progress}
      {fault : Fault} :
      opened.length ≤ deepestImport →
      Strays context files opened placement file (.part (SheetToken.scan.pieces text)) progress
        fault →
      Strays context files opened placement file (.whole text) progress fault
  | char {opened : List Path} {placement : Placement} {file : Text} {progress : Progress}
      {c : CodePoint} {pieces : List (Piece SheetToken)} {fault : Fault} :
      Strays context files opened placement file (.part pieces) progress fault →
      Strays context files opened placement file (.part (.char c :: pieces)) progress fault
  | inert {opened : List Path} {placement : Placement} {file : Text} {progress : Progress}
      {token : Inert} {pieces : List (Piece SheetToken)} {fault : Fault} :
      Strays context files opened placement file (.part pieces) progress fault →
      Strays context files opened placement file (.part (.token (.inert token) :: pieces))
        progress fault
  | first {opened : List Path} {placement : Placement} {file : Text} {progress : Progress}
      {statement : ImportStatement} {pieces : List (Piece SheetToken)} {fault : Fault} :
      Strays context files opened placement file (.importing statement) progress fault →
      Strays context files opened placement file
        (.part (.token (.importing statement) :: pieces)) progress fault
  | later {opened : List Path} {placement : Placement} {file : Text} {progress : Progress}
      {statement : ImportStatement} {pieces : List (Piece SheetToken)}
      {visits : List (List Path)} {expansion : Expansion} {fault : Fault} :
      Expands context files opened placement file (.importing statement) progress visits
        (.ok expansion) →
      Strays context files opened placement file (.part pieces) expansion.2 fault →
      Strays context files opened placement file
        (.part (.token (.importing statement) :: pieces)) progress fault

variable {placement : Placement} {opened : List Path} {file : Text} {progress : Progress}

/-- A run that ends in a fault which is not told as one of a stylesheet has strayed. -/
theorem Expands.strays (grounded : HasSoundFiles context files) {matter : Matter}
    {visits : List (List Path)} {outcome : Except Fault Expansion}
    (run : Expands context files opened placement file matter progress visits outcome)
    (followed : (Path.ofText file).refusal? = none) (failed : outcome = .error fault)
    (stray : ¬ fault.IsCompile) :
    Strays context files opened placement file matter progress fault := by
  induction run with
  | refused =>
      cases failed
      exact absurd ⟨_, _, rfl⟩ stray
  | nil | plain | missing | seen | verbatim => cases failed
  | visited shallow _ ih => exact .whole shallow (ih followed failed)
  | char _ ih => exact .char (ih followed (eq_error_of_map failed))
  | inert _ ih => exact .inert (ih followed (eq_error_of_map failed))
  | failed _ ih => exact .first (ih followed failed)
  | replaced statementRun _ _ later =>
      exact .later statementRun (later followed (eq_error_of_map failed))
  | unresolved leads =>
      cases failed
      exact .lookup ((importTarget_eq_error_iff followed).mp ⟨leads, stray⟩)
  | unreadable leads wanted unread =>
      -- The file is there and is text, so that only its path can be at fault.
      cases failed
      obtain ⟨long, rfl⟩ := (grounded.result_readUnified leads).mp unread
      exact .tooLong leads wanted long
  | @referred _ _ _ _ statement _ _ _ _ leads wanted read named _ ih =>
      have follows : statement.isFollowed = true := by
        rw [ImportStatement.isFollowed, named, Bool.true_or]
      have inner := ih (grounded.refusal?_found leads) (eq_error_of_map failed)
      rw [← innerPlacement_of_reference named] at inner
      exact .inside leads wanted read follows inner
  | @nested _ placement _ _ statement _ _ _ _ leads wanted read unnamed follows _ ih =>
      have inner := ih (grounded.refusal?_found leads) (eq_error_of_map failed)
      have same : innerPlacement statement placement = placement :=
        innerPlacement_of_not_reference unnamed
      rw [← same] at inner
      exact .inside leads wanted read follows inner

/-- Where an expansion strays its result is the stray fault. -/
theorem Strays.resultAt_eq (grounded : HasSoundFiles context files) {matter : Matter}
    (strays : Strays context files opened placement file matter progress fault)
    (followed : (Path.ofText file).refusal? = none) :
    matter.resultAt context files opened.length placement file progress = .error fault := by
  induction strays with
  | lookup astray =>
      have leads := ((importTarget_eq_error_iff followed).mpr astray).1
      simp only [Matter.resultAt, importResult, leads, statementResult]
  | tooLong leads wanted long =>
      have unread := (grounded.result_readUnified leads).mpr ⟨long, rfl⟩
      simp only [Matter.resultAt, importResult, leads, statementResult, passes_eq_false wanted,
        includedResult, unread, Bool.false_eq_true, if_false]
  | inside leads wanted read follows _ ih =>
      have inner := ih (grounded.refusal?_found leads)
      rw [resultAt_importing_of_file leads wanted read, contentResult_of_isFollowed follows inner]
      rfl
  | whole shallow _ ih => rw [resultAt_whole_of_le shallow, ih followed]
  | char _ ih | inert _ ih =>
      have inner := ih followed
      simp only [Matter.resultAt] at inner ⊢
      simp only [runPieces, inner, Except.map]
  | first _ ih =>
      have inner := ih followed
      simp only [Matter.resultAt] at inner ⊢
      simp only [runPieces, inner]
  | later statementRun _ ih =>
      -- What stands behind the import starts from the progress that its run ends with.
      have before := statementRun.outcome_eq
      have behind := ih followed
      simp only [Matter.resultAt] at before behind ⊢
      simp only [runPieces, ← before, behind, Except.map]

theorem Strays.not_isCompile {matter : Matter}
    (strays : Strays context files opened placement file matter progress fault) :
    ¬ fault.IsCompile := by
  induction strays with
  | lookup astray => exact astray.2.not_isCompile
  | tooLong =>
      intro ⟨importer, cause, told⟩
      cases told
  | inside _ _ _ _ _ ih | whole _ _ ih | char _ ih | inert _ ih | first _ ih | later _ _ ih =>
      exact ih

/-- An import statement of a file cannot be looked for, or leads to a file whose absolute path is
too long to be read. -/
def Misleads (context : StyleContext) (files : FileSystem) (file : Text)
    (statement : ImportStatement) : Prop :=
  (∃ fault, LookupStrays context files file statement fault) ∨
    ∃ found, importTarget context files file statement = .ok (.file found) ∧
      FileSystem.isLonger FileSystem.longestPath found.text = true

/-- An expansion that strays does so at a statement among those that can be reached. -/
theorem Strays.exists_misleads {reached : Text → ImportStatement → Prop} {matter : Matter}
    (strays : Strays context files opened placement file matter progress fault)
    (onward : ∀ importer statement found content next, reached importer statement →
      statement.isFollowed = true →
      importTarget context files importer statement = .ok (.file found) →
      (Inquiry.readUnified .utf8 found).result files = .ok content →
      HasImport content next → reached found.text next)
    (here : ∀ statement, matter.Holds statement → reached file statement) :
    ∃ importer statement, reached importer statement ∧
      Misleads context files importer statement := by
  induction strays with
  | lookup astray => exact ⟨_, _, here _ rfl, .inl ⟨_, astray⟩⟩
  | tooLong leads _ long => exact ⟨_, _, here _ rfl, .inr ⟨_, leads, long⟩⟩
  | inside leads _ read follows _ ih =>
      exact ih fun next stands => onward _ _ _ _ next (here _ rfl) follows leads read stands
  | whole _ _ ih => exact ih here
  | char _ ih | inert _ ih | later _ _ ih =>
      exact ih fun statement held => here statement (.tail _ held)
  | first _ ih =>
      refine ih fun statement own => here statement ?_
      rw [show statement = _ from own]
      exact .head _

/-! ## Rendering -/

/-- The name of an entry cannot be resolved, or its expansion strays. -/
def EntryStrays (context : StyleContext) (files : FileSystem) (placement : Placement)
    (file text : Text) (fault : Fault) : Prop :=
  match (Path.ofText file).refusal? with
  | some cause => fault = .access cause (Path.ofText file).text
  | none =>
      Strays context files [] placement file (.whole text)
        ⟨(Path.ofText file).absolute context.workingDirectory, [], []⟩ fault

theorem result_expand_eq_error_iff (grounded : HasSoundFiles context files) (text : Text) :
    (expand context placement file text).result files = .error fault ∧ ¬ fault.IsCompile ↔
      EntryStrays context files placement file text fault := by
  unfold EntryStrays
  cases followed : (Path.ofText file).refusal? with
  | some cause =>
      rw [result_expand, followed]
      constructor
      · intro ⟨failed, _⟩
        exact (Except.error.inj failed).symm
      · intro told
        subst told
        refine ⟨rfl, fun ⟨importer, reason, told⟩ => ?_⟩
        cases told
  | none =>
      constructor
      · intro ⟨failed, stray⟩
        obtain ⟨visits, run⟩ := exists_expandsEntry context files placement file text
        rw [ExpandsEntry, followed] at run
        exact run.strays grounded followed failed stray
      · intro strays
        rw [result_expand, followed]
        exact ⟨strays.resultAt_eq grounded followed, strays.not_isCompile⟩

theorem compileExpanded_error {expansion : Expansion}
    (failed : compileExpanded context file expansion = .error fault) : fault.IsCompile := by
  unfold compileExpanded at failed
  split at failed
  · cases failed
    exact ⟨_, _, rfl⟩
  · split at failed
    · cases failed
      exact ⟨_, _, rfl⟩
    · cases failed

theorem result_render_eq_error_iff (text : Text) :
    (render context file text).result files = .error fault ∧ ¬ fault.IsCompile ↔
      isLess (Path.ofText file) context.options.lessExtensions = true ∧
        (expand context .hoisted file text).result files = .error fault ∧
          ¬ fault.IsCompile := by
  unfold render
  by_cases less : isLess (Path.ofText file) context.options.lessExtensions = true
  · rw [if_pos less, Inquiry.result_bind, Inquiry.result_debug]
    dsimp only
    unfold compileSource
    rw [Inquiry.result_bind]
    cases (expand context .hoisted file text).result files with
    | error cause => simp [less]
    | ok expansion =>
        dsimp only
        rw [Inquiry.result_ofExcept]
        constructor
        · intro ⟨failed, stray⟩
          exact absurd (compileExpanded_error failed) stray
        · intro ⟨_, failed, _⟩
          cases failed
  · simp [less]

/-- An import statement stands in the entry, or in a file that is reached from it by imports that
are followed. -/
def IsWithin (context : StyleContext) (files : FileSystem) (file text importer : Text)
    (statement : ImportStatement) : Prop :=
  importer = file ∧ HasImport text statement ∨
    ∃ found content, Reaches context files ImportStatement.isFollowed file text found ∧
      content ∈ ((Inquiry.readUnified .utf8 found).result files).toOption ∧
      importer = found.text ∧ HasImport content statement

theorem EntryStrays.exists_misleads {text : Text}
    (strays : EntryStrays context files placement file text fault)
    (followed : (Path.ofText file).refusal? = none) :
    ∃ importer statement, IsWithin context files file text importer statement ∧
      Misleads context files importer statement := by
  rw [EntryStrays, followed] at strays
  refine strays.exists_misleads ?_ fun statement stands => .inl ⟨rfl, stands⟩
  intro importer statement found content next within follows leads read stands
  have present : content ∈ ((Inquiry.readUnified .utf8 found).result files).toOption := by
    rw [read]
    rfl
  have target {written : Text} (stands : HasImport written statement) :
      found ∈ targetsOf context files ImportStatement.isFollowed importer written :=
    mem_targetsOf.mpr ⟨statement, stands, follows, leads⟩
  rcases within with ⟨rfl, inEntry⟩ | ⟨between, written, reaches, known, rfl, inFile⟩
  · exact .inr ⟨found, content, .direct (target inEntry), present, rfl, stands⟩
  · exact .inr ⟨found, content, .onward reaches known (target inFile), present, rfl, stands⟩

/-- A rendering ends in a fault that is not told as one of a stylesheet exactly if the entry is to
be compiled and strays: its name cannot be resolved, or it comes to an import whose reference leads
to a path without a name or to one that is too long. Where no import can mislead, all faults are
told as those of a stylesheet. -/
theorem render_fault_iff (grounded : HasSoundFiles context files) (file text : Text) :
    (∀ fault, (render context file text).result files = .error fault ∧ ¬ fault.IsCompile ↔
      isLess (Path.ofText file) context.options.lessExtensions = true ∧
        EntryStrays context files .hoisted file text fault) ∧
    ((Path.ofText file).refusal? = none →
      (∀ importer statement, IsWithin context files file text importer statement →
        ¬ Misleads context files importer statement) →
      ∀ fault, (render context file text).result files = .error fault → fault.IsCompile) := by
  have strays : ∀ fault, (render context file text).result files = .error fault ∧
      ¬ fault.IsCompile ↔ isLess (Path.ofText file) context.options.lessExtensions = true ∧
        EntryStrays context files .hoisted file text fault := fun fault => by
    rw [result_render_eq_error_iff, result_expand_eq_error_iff grounded]
  refine ⟨strays, fun followed never fault failed => ?_⟩
  by_contra stray
  obtain ⟨importer, statement, within, misleads⟩ :=
    ((strays fault).mp ⟨failed, stray⟩).2.exists_misleads followed
  exact never importer statement within misleads

/-- One file that can be imported. -/
def variableFiles : FileSystem where
  entries := [(["a.less"], .file (Utf8.encode "@v: 1;"))]
  workingDirectory := []

theorem hasSoundFiles_variableFiles : HasSoundFiles plainContext variableFiles where
  fits := ⟨rfl, nofun, nofun⟩
  sound := FileSystem.isSound_of_entries (by decide +kernel) (by decide +kernel)
  utf8 := FileSystem.holdsUtf8_of_entries fun entry member bytes held => by
    obtain rfl := List.mem_singleton.mp member
    cases held
    exact ⟨"@v: 1;", by decide +kernel⟩

theorem render_fault_iff_of_variableFiles :
    EntryStrays plainContext variableFiles .hoisted "e.less" "@import 'a'; @import '/';"
        (.namelessPath ⟨.root, []⟩) ∧
      ∀ fault, (render plainContext "e.less" "@import 'a'; @import 'c';").result variableFiles =
        .error fault → fault.IsCompile := by
  have grounded := hasSoundFiles_variableFiles
  constructor
  · have failed : (render plainContext "e.less" "@import 'a'; @import '/';").result variableFiles =
        .error (.namelessPath ⟨.root, []⟩) := by decide +kernel
    have stray : ¬ (Fault.namelessPath ⟨.root, []⟩).IsCompile := by
      intro ⟨importer, cause, told⟩
      cases told
    exact (((render_fault_iff grounded "e.less" "@import 'a'; @import '/';").1 _).mp
      ⟨failed, stray⟩).2
  · have followed : (Path.ofText "e.less").refusal? = none := by decide +kernel
    refine (render_fault_iff grounded "e.less" "@import 'a'; @import 'c';").2 followed ?_
    have direct : targetsOf plainContext variableFiles ImportStatement.isFollowed "e.less"
        "@import 'a'; @import 'c';" = [⟨.root, ["a.less"]⟩] := by decide +kernel
    have silent : ∀ content ∈ ((Inquiry.readUnified .utf8 ⟨.root, ["a.less"]⟩).result
        variableFiles).toOption, importsOf content = [] := by decide +kernel
    have leads : ∀ statement ∈ importsOf "@import 'a'; @import 'c';",
        importTarget plainContext variableFiles "e.less" statement =
            .ok (.file ⟨.root, ["a.less"]⟩) ∨
          importTarget plainContext variableFiles "e.less" statement =
            .error (.stylesheet "e.less" (.unresolvedImport "c")) := by decide +kernel
    have short : FileSystem.isLonger FileSystem.longestPath (Path.text ⟨.root, ["a.less"]⟩) =
        false := by decide +kernel
    intro importer statement within misleads
    rcases within with ⟨rfl, stands⟩ | ⟨found, content, reaches, read, rfl, stands⟩
    · have target := leads statement (hasImport_iff.mp stands)
      rcases misleads with ⟨fault, astray⟩ | ⟨found, same, long⟩
      · obtain ⟨failed, stray⟩ := (importTarget_eq_error_iff followed).mpr astray
        rw [failed] at target
        rcases target with other | missing
        · cases other
        · cases missing
          exact stray ⟨_, _, rfl⟩
      · rw [same] at target
        rcases target with file | other
        · cases file
          rw [short] at long
          cases long
        · cases other
    · have listed : found ∈ [(⟨.root, ["a.less"]⟩ : Path)] := by
        refine reaches.mem _ (by rw [direct]; exact List.Subset.refl _) ?_
        intro between among content read
        obtain rfl := List.mem_singleton.mp among
        rw [targetsOf, silent content read]
        exact List.nil_subset _
      obtain rfl := List.mem_singleton.mp listed
      rw [hasImport_iff, silent content read] at stands
      cases stands

/-- An import of the directory of an entry that is named without any is not told as a fault of the
stylesheet. -/
theorem import_may_stray :
    ¬∀ (context : StyleContext) (files : FileSystem) (file text : Text),
      HasSoundFiles context files →
      (∃ rendering, (render context file text).result files = .ok rendering) ∨
        ∃ importer cause, (render context file text).result files =
          .error (.stylesheet importer cause) := by
  intro claimed
  have result : (render plainContext "e.less" "@import '.';").result variableFiles =
      .error (.namelessPath ⟨.relative, []⟩) := by decide +kernel
  have outcome := claimed plainContext variableFiles "e.less" "@import '.';"
    hasSoundFiles_variableFiles
  rw [result] at outcome
  rcases outcome with ⟨rendering, done⟩ | ⟨importer, cause, failed⟩
  · cases done
  · cases failed

end Inlay.Stylesheet
