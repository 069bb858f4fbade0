import Inlay.Proofs.Files.Canonical
import Inlay.Proofs.Files.Writing
import Inlay.Proofs.Inquiry.Answers
import Inlay.Proofs.Stylesheet.Lookup

/-!
# Where references lead

An import leads to the absolute form of a path that was tried for its reference and is that of
a regular file. On a file system with a settled working directory this is the location of the
file, so the files that imports lead to are told apart by their paths
(`importTarget_file_location`).
-/

set_option autoImplicit false

namespace Inlay

/-- What a style context and a file system agree on: the working directory is that of the
files and a location, and the roots of packages are paths as they are written. -/
structure StyleContext.Fits (context : StyleContext) (files : FileSystem) : Prop where
  sameDirectory : context.workingDirectory = files.workingDirectory
  settled : IsSettled files.workingDirectory
  tidyRoots : ∀ root ∈ context.options.packageRoots, root.IsTidy

namespace Stylesheet

variable {context : StyleContext} {files : FileSystem} {answers : Answers}

def triedBelow (reference : Text) (directories : List Path) : List Path :=
  directories.flatMap fun directory =>
    (candidates? (directory.join (Path.ofText reference))).getD []

def triedPaths (context : StyleContext) (importer : Path) (reference : Text) : List Path :=
  match context.options.packageMark, Text.after? context.options.packageMark reference with
  | _ :: _, some inPackage =>
      triedBelow inPackage
        (packageDirectories (Path.absolute context.workingDirectory) importer.parent
          context.options.packageRoots)
  | _, _ => triedBelow reference [importer.parent]

theorem probeFile_eq_true {path : Path} (probed : files.probeFile path = .ok true) :
    ∃ location bytes, files.locate path = .ok location ∧
      files.find? location = some (.file bytes) := by
  unfold FileSystem.probeFile FileSystem.look at probed
  split at probed
  · next entry looked =>
      obtain ⟨location, located, found⟩ := FileSystem.lookup_eq_ok_iff.mp looked
      cases entry with
      | directory => cases probed
      | file bytes => exact ⟨location, bytes, located, found⟩
  · cases probed
  · cases probed

theorem resultBy_firstFile?_some {paths : List Path} {found : Path}
    (result : (firstFile? paths).resultBy answers = .ok (some found)) :
    found ∈ paths ∧ answers.probe found = .ok true := by
  induction paths with
  | nil => cases result
  | cons path paths ih =>
      simp only [firstFile?, Inquiry.resultBy] at result
      cases probed : answers.probe path with
      | error cause =>
          rw [probed] at result
          cases result
      | ok isFile =>
          rw [probed] at result
          cases isFile with
          | true =>
              cases result
              exact ⟨.head _, probed⟩
          | false =>
              obtain ⟨member, there⟩ := ih result
              exact ⟨.tail _ member, there⟩

/-- Whatever answers a search, it leads to what is resolved of a path that was tried. -/
theorem resultBy_searchIn_some {resolve : Path → Path} {reference : Text}
    {directories : List Path} {found : Path}
    (result : (searchIn resolve reference directories).resultBy answers = .ok (some found)) :
    ∃ tried ∈ triedBelow reference directories, answers.probe tried = .ok true ∧
      found = resolve tried := by
  induction directories with
  | nil => cases result
  | cons directory directories ih =>
      rw [triedBelow, List.flatMap_cons]
      unfold searchIn at result
      dsimp only at result
      split at result
      · cases result
      · next paths candidates =>
          rw [candidates, Option.getD_some]
          rw [Inquiry.resultBy_bind] at result
          split at result
          · next first searched =>
              cases first with
              | some tried =>
                  cases result
                  obtain ⟨member, probed⟩ := resultBy_firstFile?_some searched
                  exact ⟨tried, List.mem_append_left _ member, probed, rfl⟩
              | none =>
                  obtain ⟨tried, member, leads⟩ := ih result
                  exact ⟨tried, List.mem_append_right _ member, leads⟩
          · cases result

theorem searchIn_some {resolve : Path → Path} {reference : Text} {directories : List Path}
    {found : Path}
    (result : (searchIn resolve reference directories).result files = .ok (some found)) :
    ∃ tried ∈ triedBelow reference directories, files.probeFile tried = .ok true ∧
      found = resolve tried := by
  rw [← Inquiry.resultBy_answers] at result
  exact resultBy_searchIn_some result

theorem resolveImport_some {importer found : Path} {reference : Text}
    (result : (resolveImport context.workingDirectory context.options reference importer).result
      files = .ok (some found)) :
    ∃ tried ∈ triedPaths context importer reference, files.probeFile tried = .ok true ∧
      found = tried.absolute context.workingDirectory := by
  unfold resolveImport at result
  unfold triedPaths
  cases marked : context.options.packageMark with
  | nil =>
      rw [marked] at result
      exact searchIn_some result
  | cons c mark =>
      rw [marked] at result
      cases behind : Text.after? (c :: mark) reference with
      | none =>
          rw [behind] at result
          exact searchIn_some result
      | some inPackage =>
          simp only [behind, resolvePackage] at result
          split at result
          · cases result
          · exact searchIn_some result

theorem searchIn_error {resolve : Path → Path} {reference : Text} {directories : List Path}
    {fault : Fault}
    (failed : (searchIn resolve reference directories).result files = .error fault)
    (importer : Text) (cause : CompileCause) : fault ≠ .stylesheet importer cause := by
  intro told
  exact (result_searchIn_eq_error_iff.mp failed).not_isCompile ⟨importer, cause, told⟩

theorem resolveImport_error {importer : Path} {reference : Text} {fault : Fault}
    (failed : (resolveImport context.workingDirectory context.options reference importer).result
      files = .error fault) (file : Text) (cause : CompileCause) :
    fault ≠ .stylesheet file cause := by
  unfold resolveImport at failed
  split at failed
  · unfold resolvePackage at failed
    split at failed
    · cases failed
      exact Fault.noConfusion
    · exact searchIn_error failed file cause
  · exact searchIn_error failed file cause

theorem importTarget_file {file : Text} {statement : ImportStatement} {found : Path}
    (leads : importTarget context files file statement = .ok (.file found)) :
    ∃ tried ∈ triedPaths context (Path.ofText file)
        (ImportStatement.unquoted statement.target),
      files.probeFile tried = .ok true ∧ found = tried.absolute context.workingDirectory := by
  unfold importTarget at leads
  split at leads
  · cases leads
  · dsimp only at leads
    split at leads
    · cases leads
    · next resolved =>
        cases leads
        exact resolveImport_some resolved
    · split at leads <;> cases leads

/-- A name with the extension of sources is neither a single dot nor a double one. -/
theorem isStep_lessName (name : Text) :
    IsStep (name ++ Text.ofString ".less") ∧ name ++ Text.ofString ".less" ≠ parentPart := by
  have long : 5 ≤ (name ++ Text.ofString ".less").length := by
    rw [List.length_append]
    exact Nat.le_add_left 5 _
  refine ⟨⟨?_, ?_⟩, ?_⟩
  all_goals
    intro same
    rw [same] at long
    exact absurd long (by decide)

theorem isTidy_of_mem_candidates {path tried : Path} {paths : List Path} (tidy : path.IsTidy)
    (candidates : candidates? path = some paths) (member : tried ∈ paths) : tried.IsTidy := by
  unfold candidates? Path.appendToName? at candidates
  split at candidates
  · split at candidates
    · cases candidates
    · cases candidates
      rcases List.mem_cons.mp member with rfl | neighbour
      · exact tidy
      · rw [List.mem_singleton.mp neighbour]
        exact tidy.parent.child (isStep_lessName _).1
  · cases candidates
    rwa [List.mem_singleton.mp member]

theorem isTidy_of_mem_triedBelow {reference : Text} {directories : List Path} {tried : Path}
    (tidy : ∀ directory ∈ directories, directory.IsTidy)
    (member : tried ∈ triedBelow reference directories) : tried.IsTidy := by
  obtain ⟨directory, listed, among⟩ := List.mem_flatMap.mp member
  cases candidates : candidates? (directory.join (Path.ofText reference)) with
  | none =>
      rw [candidates] at among
      cases among
  | some paths =>
      rw [candidates] at among
      exact isTidy_of_mem_candidates ((tidy directory listed).join (Path.isTidy_ofText reference))
        candidates among

theorem isTidy_of_mem_packageDirectories {start directory : Path} (fits : context.Fits files)
    (tidy : start.IsTidy)
    (member : directory ∈
      packageDirectories (Path.absolute context.workingDirectory) start
        context.options.packageRoots) :
    directory.IsTidy := by
  rcases List.mem_append.mp member with package | root
  · obtain ⟨above, listed, rfl⟩ := List.mem_map.mp package
    obtain ⟨count, _, rfl⟩ := List.mem_map.mp listed
    refine Path.IsTidy.child (fun part among => ?_) ⟨by decide, by decide⟩
    rw [fits.sameDirectory] at among
    exact Path.isTidy_absolute fits.settled tidy part (List.mem_of_mem_take among)
  · exact fits.tidyRoots directory root

theorem isTidy_of_mem_triedPaths {importer tried : Path} {reference : Text}
    (fits : context.Fits files) (tidy : importer.IsTidy)
    (member : tried ∈ triedPaths context importer reference) : tried.IsTidy := by
  unfold triedPaths at member
  split at member
  · exact isTidy_of_mem_triedBelow
      (fun _ listed => isTidy_of_mem_packageDirectories fits tidy.parent listed) member
  · refine isTidy_of_mem_triedBelow (fun directory listed => ?_) member
    rw [List.mem_singleton.mp listed]
    exact tidy.parent

/-- An import leads to the location of a regular file to which a path leads that was tried for
its reference. -/
theorem importTarget_file_location {file : Text} {statement : ImportStatement} {found : Path}
    (fits : context.Fits files)
    (leads : importTarget context files file statement = .ok (.file found)) :
    ∃ tried ∈ triedPaths context (Path.ofText file)
        (ImportStatement.unquoted statement.target),
      ∃ location bytes, files.locate tried = .ok location ∧
        files.find? location = some (.file bytes) ∧ found = ⟨.root, location⟩ := by
  obtain ⟨tried, member, probed, absolute⟩ := importTarget_file leads
  obtain ⟨location, bytes, located, stands⟩ := probeFile_eq_true probed
  have tidy := isTidy_of_mem_triedPaths fits (Path.isTidy_ofText file) member
  refine ⟨tried, member, location, bytes, located, stands, ?_⟩
  rw [absolute, fits.sameDirectory]
  exact FileSystem.absolute_of_locate fits.settled tidy located

end Stylesheet

end Inlay
