import Inlay.Proofs.Files.Soundness
import Inlay.Proofs.Stylesheet.ExpansionRun

/-!
# Looking for references

The search for a reference asks for its paths one after another, up to one that leads to a regular
file (`result_searchIn_eq_ok_iff`). It ends in a fault exactly where it comes to a path without a
name, which has no neighbour to ask for, or to a path that is too long to be asked for
(`result_searchIn_eq_error_iff`).
-/

set_option autoImplicit false

namespace Inlay

/-- Whether a fault is told as one of the stylesheet. -/
def Fault.IsCompile (fault : Fault) : Prop := ∃ file cause, fault = .stylesheet file cause

namespace Stylesheet

variable {context : StyleContext} {files : FileSystem} {fault : Fault}

theorem candidates?_eq_none_iff {path : Path} : candidates? path = none ↔ path.parts = [] := by
  unfold candidates? Path.appendToName?
  constructor
  · intro none
    split at none
    · rw [Option.map_eq_none_iff] at none
      split at none
      · next bare => exact bare
      · cases none
    · cases none
  · intro none
    have unnamed : path.name = [] := by rw [Path.name, none]; rfl
    have bare : path.suffix = [] := by simp [Path.suffix, unnamed]
    rw [if_pos bare, if_pos none]
    rfl

/-- The probes of some paths come to one that is too long, and find no file before. -/
def MeetsTooLong (files : FileSystem) (paths : List Path) (tried : Path) : Prop :=
  ∃ before behind, paths = before ++ tried :: behind ∧
    (∀ other ∈ before, files.probeFile other = .ok false) ∧
    files.probeFile tried = .error .nameTooLong

theorem meetsTooLong_cons_iff {path tried : Path} {paths : List Path} :
    MeetsTooLong files (path :: paths) tried ↔
      path = tried ∧ files.probeFile tried = .error .nameTooLong ∨
        files.probeFile path = .ok false ∧ MeetsTooLong files paths tried := by
  constructor
  · intro ⟨before, behind, split, absent, long⟩
    cases before with
    | nil => exact .inl ⟨(List.cons.inj split).1, long⟩
    | cons first before =>
        obtain ⟨rfl, rest⟩ := List.cons.inj split
        obtain ⟨here, others⟩ := List.forall_mem_cons.mp absent
        exact .inr ⟨here, before, behind, rest, others, long⟩
  · intro meets
    rcases meets with ⟨rfl, long⟩ | ⟨here, before, behind, rfl, absent, long⟩
    · exact ⟨[], paths, rfl, nofun, long⟩
    · exact ⟨path :: before, behind, rfl, List.forall_mem_cons.mpr ⟨here, absent⟩, long⟩

theorem result_firstFile?_eq_none_iff {paths : List Path} :
    (firstFile? paths).result files = .ok none ↔
      ∀ path ∈ paths, files.probeFile path = .ok false := by
  induction paths with
  | nil => simp [firstFile?, Inquiry.result]
  | cons path paths ih =>
      rw [List.forall_mem_cons, ← ih]
      simp only [firstFile?, Inquiry.result]
      rcases files.probeFile path with cause | _ | _ <;> simp [Inquiry.result]

theorem result_firstFile?_eq_some_iff {paths : List Path} {tried : Path} :
    (firstFile? paths).result files = .ok (some tried) ↔
      ∃ before behind, paths = before ++ tried :: behind ∧
        (∀ path ∈ before, files.probeFile path = .ok false) ∧
        files.probeFile tried = .ok true := by
  induction paths with
  | nil => simp [firstFile?, Inquiry.result]
  | cons path paths ih =>
      simp only [firstFile?, Inquiry.result]
      constructor
      · intro searched
        split at searched
        · next probed =>
            cases searched
            exact ⟨[], paths, rfl, nofun, probed⟩
        · next absent =>
            obtain ⟨before, behind, rfl, others, probed⟩ := ih.mp searched
            exact ⟨path :: before, behind, rfl, List.forall_mem_cons.mpr ⟨absent, others⟩, probed⟩
        · cases searched
      · intro ⟨before, behind, split, absent, probed⟩
        cases before with
        | nil =>
            cases split
            rw [probed]
            rfl
        | cons first before =>
            obtain ⟨rfl, rfl⟩ := List.cons.inj split
            obtain ⟨here, others⟩ := List.forall_mem_cons.mp absent
            rw [here]
            exact ih.mpr ⟨before, behind, rfl, others, probed⟩

theorem result_firstFile?_eq_error_iff {paths : List Path} :
    (firstFile? paths).result files = .error fault ↔
      ∃ tried, MeetsTooLong files paths tried ∧ fault = .access .nameTooLong tried.text := by
  induction paths with
  | nil => simp [firstFile?, Inquiry.result, MeetsTooLong]
  | cons path paths ih =>
      simp only [meetsTooLong_cons_iff, firstFile?, Inquiry.result]
      cases probed : files.probeFile path with
      | error cause =>
          obtain rfl := FileSystem.probeFile_error probed
          constructor
          · intro failed
            cases failed
            exact ⟨path, .inl ⟨rfl, probed⟩, rfl⟩
          · intro come
            obtain ⟨tried, meets, told⟩ := come
            rcases meets with ⟨rfl, -⟩ | ⟨absent, -⟩
            · rw [told]
              rfl
            · cases absent
      | ok isFile =>
          have passes {tried : Path} : ¬ (path = tried ∧
              files.probeFile tried = .error .nameTooLong) := by
            intro come
            rw [← come.1, probed] at come
            cases come.2
          cases isFile with
          | true => simp [Inquiry.result, passes]
          | false => simpa [passes] using ih

/-- How the search for a reference below some directories ends in a fault: in one of them, in turn,
the reference leads to a path without a name, or to a path that is too long. -/
inductive SearchStrays (files : FileSystem) (reference : Text) : List Path → Fault → Prop where
  | nameless {directory : Path} {directories : List Path} :
      (directory.join (Path.ofText reference)).parts = [] →
      SearchStrays files reference (directory :: directories)
        (.namelessPath (directory.join (Path.ofText reference)))
  | tooLong {directory tried : Path} {directories paths : List Path} :
      candidates? (directory.join (Path.ofText reference)) = some paths →
      MeetsTooLong files paths tried →
      SearchStrays files reference (directory :: directories) (.access .nameTooLong tried.text)
  | behind {directory : Path} {directories paths : List Path} {fault : Fault} :
      candidates? (directory.join (Path.ofText reference)) = some paths →
      (∀ path ∈ paths, files.probeFile path = .ok false) →
      SearchStrays files reference directories fault →
      SearchStrays files reference (directory :: directories) fault

theorem result_searchIn_eq_error_iff {resolve : Path → Path} {reference : Text}
    {directories : List Path} :
    (searchIn resolve reference directories).result files = .error fault ↔
      SearchStrays files reference directories fault := by
  induction directories with
  | nil =>
      constructor
      · intro failed
        cases failed
      · intro strays
        cases strays
  | cons directory directories ih =>
      unfold searchIn
      dsimp only
      constructor
      · intro failed
        split at failed
        · next unnamed =>
            cases failed
            exact .nameless (candidates?_eq_none_iff.mp unnamed)
        · next paths candidates =>
            rw [Inquiry.result_bind] at failed
            split at failed
            · next first searched =>
                cases first with
                | some tried => cases failed
                | none =>
                    exact .behind candidates (result_firstFile?_eq_none_iff.mp searched)
                      (ih.mp failed)
            · next searched =>
                cases failed
                obtain ⟨tried, meets, rfl⟩ := result_firstFile?_eq_error_iff.mp searched
                exact .tooLong candidates meets
      · intro strays
        cases strays with
        | nameless unnamed =>
            rw [candidates?_eq_none_iff.mpr unnamed]
            rfl
        | tooLong candidates meets =>
            have searched := result_firstFile?_eq_error_iff.mpr ⟨_, meets, rfl⟩
            rw [candidates]
            dsimp only
            rw [Inquiry.result_bind, searched]
        | behind candidates absent later =>
            have searched := result_firstFile?_eq_none_iff.mpr absent
            rw [candidates]
            dsimp only
            rw [Inquiry.result_bind, searched]
            exact ih.mpr later

/-- How the search for a reference below some directories ends without a fault. -/
inductive SearchEnds (files : FileSystem) (reference : Text) :
    List Path → Option Path → Prop where
  | nowhere : SearchEnds files reference [] none
  | here {directory tried : Path} {directories before behind : List Path} :
      candidates? (directory.join (Path.ofText reference)) = some (before ++ tried :: behind) →
      (∀ path ∈ before, files.probeFile path = .ok false) →
      files.probeFile tried = .ok true →
      SearchEnds files reference (directory :: directories) (some tried)
  | behind {directory : Path} {directories paths : List Path} {answer : Option Path} :
      candidates? (directory.join (Path.ofText reference)) = some paths →
      (∀ path ∈ paths, files.probeFile path = .ok false) →
      SearchEnds files reference directories answer →
      SearchEnds files reference (directory :: directories) answer

theorem result_searchIn_eq_ok_iff {resolve : Path → Path} {reference : Text}
    {directories : List Path} {answer : Option Path} :
    (searchIn resolve reference directories).result files = .ok answer ↔
      ∃ first, SearchEnds files reference directories first ∧
        answer = first.map resolve := by
  induction directories with
  | nil =>
      constructor
      · intro ended
        cases ended
        exact ⟨none, .nowhere, rfl⟩
      · intro ⟨first, ends, leads⟩
        cases ends
        rw [leads]
        rfl
  | cons directory directories ih =>
      unfold searchIn
      dsimp only
      constructor
      · intro ended
        split at ended
        · cases ended
        · next paths candidates =>
            rw [Inquiry.result_bind] at ended
            split at ended
            · next first searched =>
                cases first with
                | some tried =>
                    cases ended
                    obtain ⟨before, behind, rfl, absent, probed⟩ :=
                      result_firstFile?_eq_some_iff.mp searched
                    exact ⟨some tried, .here candidates absent probed, rfl⟩
                | none =>
                    obtain ⟨first, ends, rfl⟩ := ih.mp ended
                    exact ⟨first, .behind candidates (result_firstFile?_eq_none_iff.mp searched)
                      ends, rfl⟩
            · cases ended
      · intro ⟨first, ends, leads⟩
        subst leads
        cases ends with
        | here candidates absent probed =>
            rw [candidates]
            dsimp only
            rw [Inquiry.result_bind,
              result_firstFile?_eq_some_iff.mpr ⟨_, _, rfl, absent, probed⟩]
            rfl
        | behind candidates absent ends =>
            have searched := result_firstFile?_eq_none_iff.mpr absent
            rw [candidates]
            dsimp only
            rw [Inquiry.result_bind, searched]
            exact ih.mpr ⟨first, ends, rfl⟩

theorem SearchStrays.not_isCompile {reference : Text} {directories : List Path}
    (strays : SearchStrays files reference directories fault) : ¬ fault.IsCompile := by
  induction strays with
  | nameless | tooLong =>
      intro ⟨importer, cause, told⟩
      cases told
  | behind _ _ _ ih => exact ih

/-- What is looked for on behalf of a reference, and below which directories: behind the package
mark the rest of the reference, below the package directories. -/
def lookupOf (context : StyleContext) (importer : Path) (reference : Text) : Text × List Path :=
  match context.options.packageMark, Text.after? context.options.packageMark reference with
  | _ :: _, some inPackage =>
      (inPackage,
        packageDirectories (Path.absolute context.workingDirectory) importer.parent
          context.options.packageRoots)
  | _, _ => (reference, [importer.parent])

theorem resolveImport_eq_searchIn {importer : Path} (followed : importer.refusal? = none)
    (reference : Text) :
    resolveImport context.workingDirectory context.options reference importer =
      searchIn (Path.absolute context.workingDirectory) (lookupOf context importer reference).1
        (lookupOf context importer reference).2 := by
  unfold resolveImport lookupOf resolvePackage
  rw [refusal?_parent followed]
  cases context.options.packageMark with
  | nil => rfl
  | cons c mark =>
      cases Text.after? (c :: mark) reference with
      | none => rfl
      | some inPackage => rfl

/-- The reference of an import statement of a file cannot be looked for. -/
def LookupStrays (context : StyleContext) (files : FileSystem) (file : Text)
    (statement : ImportStatement) (fault : Fault) : Prop :=
  ImportStatement.staysImport statement.target statement.options = false ∧
    SearchStrays files
      (lookupOf context (Path.ofText file) (ImportStatement.unquoted statement.target)).1
      (lookupOf context (Path.ofText file) (ImportStatement.unquoted statement.target)).2 fault

theorem importTarget_eq_error_iff {file : Text} {statement : ImportStatement}
    (followed : (Path.ofText file).refusal? = none) :
    importTarget context files file statement = .error fault ∧ ¬ fault.IsCompile ↔
      LookupStrays context files file statement fault := by
  unfold importTarget LookupStrays
  cases stays : ImportStatement.staysImport statement.target statement.options with
  | true => simp
  | false =>
      simp only [Bool.false_eq_true, if_false, true_and]
      rw [← result_searchIn_eq_error_iff, ← resolveImport_eq_searchIn followed]
      cases resolved : (resolveImport context.workingDirectory context.options
          (ImportStatement.unquoted statement.target) (Path.ofText file)).result files with
      | error cause =>
          have strays : ¬ cause.IsCompile := by
            rw [resolveImport_eq_searchIn followed] at resolved
            exact (result_searchIn_eq_error_iff.mp resolved).not_isCompile
          constructor
          · intro ⟨failed, _⟩
            cases failed
            rfl
          · intro failed
            cases failed
            exact ⟨rfl, strays⟩
      | ok first =>
          constructor
          · intro ⟨failed, strays⟩
            exfalso
            cases first with
            | some found => cases failed
            | none =>
                dsimp only at failed
                split at failed
                · cases failed
                · cases failed
                  exact strays ⟨file, _, rfl⟩
          · intro failed
            cases failed

end Stylesheet

end Inlay
