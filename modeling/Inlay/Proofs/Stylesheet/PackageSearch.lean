import Inlay.Proofs.Files.Answers
import Inlay.Proofs.Stylesheet.Resolution
import Mathlib.Data.List.Infix

/-!
# The search for packages

The search for a reference asks for the paths of a fixed sequence, nearest directory first, up to
the first one that leads to a regular file. So its answer is this path, and files elsewhere have no
part in it (`package_search_is_nearest_first`).
-/

set_option autoImplicit false

namespace Inlay

/-! ## First files of a sequence of paths -/

namespace FileSystem

variable {files other : FileSystem} {front behind : List Path} {path : Path}

/-- The paths up to the first that leads to a regular file, with it. -/
def upToFile (files : FileSystem) : List Path → List Path
  | [] => []
  | path :: paths => if files.isFile path then [path] else path :: upToFile files paths

theorem upToFile_append (absent : ∀ path ∈ front, files.isFile path = false) :
    files.upToFile (front ++ behind) = front ++ files.upToFile behind := by
  induction front with
  | nil => rfl
  | cons path front ih =>
      obtain ⟨here, later⟩ := List.forall_mem_cons.mp absent
      rw [List.cons_append, upToFile, here, ih later]
      rfl

theorem upToFile_cons_of_isFile (file : files.isFile path = true) :
    files.upToFile (path :: behind) = [path] := by
  rw [upToFile, if_pos file]

theorem upToFile_subset (paths : List Path) : files.upToFile paths ⊆ paths := by
  induction paths with
  | nil => exact List.Subset.refl _
  | cons path paths ih =>
      unfold upToFile
      split
      · exact List.cons_subset_cons _ (List.nil_subset _)
      · exact List.cons_subset_cons _ ih

/-- Which path is the first one with a regular file is decided by those up to it. -/
theorem find?_isFile_congr {paths : List Path}
    (same : ∀ path ∈ files.upToFile paths, other.isFile path = files.isFile path) :
    paths.find? other.isFile = paths.find? files.isFile := by
  induction paths with
  | nil => rfl
  | cons path paths ih =>
      unfold upToFile at same
      cases file : files.isFile path with
      | true =>
          have kept := (same path (by simp [file])).trans file
          rw [List.find?_cons_of_pos file, List.find?_cons_of_pos kept]
      | false =>
          rw [file] at same
          obtain ⟨here, later⟩ := List.forall_mem_cons.mp same
          rw [List.find?_cons_of_neg (by rw [here, file]; decide),
            List.find?_cons_of_neg (by rw [file]; decide), ih later]

end FileSystem

namespace Stylesheet

variable {files other : FileSystem} {workingDirectory : Location} {reference : Text}
  {resolve : Path → Path} {start : Path} {roots directories : List Path} {answer : Option Path}

/-! ## The sequence of a search -/

/-- The paths that a path may stand for: itself, and only without an extension also the one with
the extension of sources. -/
def withLess (path : Path) : List Path :=
  if path.suffix = [] then [path, path.parent.child (path.name ++ ".less")] else [path]

theorem eq_withLess_of_candidates? {path : Path} {paths : List Path}
    (candidates : candidates? path = some paths) : paths = withLess path := by
  unfold candidates? Path.appendToName? at candidates
  unfold withLess
  split at candidates
  · next bare =>
      rw [if_pos bare]
      split at candidates <;> cases candidates
      rfl
  · next extended =>
      cases candidates
      rw [if_neg extended]

def candidatesBelow (reference : Text) (directories : List Path) : List Path :=
  directories.flatMap fun directory => withLess (directory.join (Path.ofText reference))

/-- The locations from the given one up to the root, nearest first. -/
def upwards (location : Location) : List Location := location.inits.reverse

/-- What is tried for a reference into a package, in order. -/
def packageCandidates (workingDirectory : Location) (reference : Text) (start : Path)
    (roots : List Path) : List Path :=
  candidatesBelow reference
    ((upwards (start.absolute workingDirectory).parts).map
      (fun above => ⟨.root, above ++ [packageDirectory]⟩) ++ roots)

theorem selfAndAncestors_eq (path : Path) :
    path.selfAndAncestors = (upwards path.parts).map fun above => ⟨path.anchor, above⟩ := by
  unfold Path.selfAndAncestors upwards
  apply List.ext_getElem <;> simp

theorem packageCandidates_eq :
    packageCandidates workingDirectory reference start roots =
      candidatesBelow reference
        (packageDirectories (Path.absolute workingDirectory) start roots) := by
  unfold packageCandidates packageDirectories
  rw [selfAndAncestors_eq, List.map_map]
  rfl

/-! ## Searches that end -/

theorem isFile_of_absent {paths : List Path}
    (absent : ∀ path ∈ paths, files.probeFile path = .ok false) :
    ∀ path ∈ paths, files.isFile path = false := fun path member =>
  FileSystem.isFile_of_probeFile (absent path member)

theorem SearchEnds.eq_find? (ends : SearchEnds files reference directories answer) :
    answer = (candidatesBelow reference directories).find? files.isFile := by
  induction ends with
  | nowhere => rfl
  | here candidates absent probed =>
      rw [candidatesBelow, List.flatMap_cons, ← eq_withLess_of_candidates? candidates,
        List.append_assoc, List.find?_append,
        List.find?_eq_none.mpr fun path member => by simp [isFile_of_absent absent path member]]
      simp [FileSystem.isFile_of_probeFile probed]
  | behind candidates absent ends ih =>
      rw [candidatesBelow, List.flatMap_cons, ← eq_withLess_of_candidates? candidates,
        List.find?_append,
        List.find?_eq_none.mpr fun path member => by simp [isFile_of_absent absent path member]]
      exact ih

/-- A search depends on the answers up to the first file only. -/
theorem SearchEnds.transfer (ends : SearchEnds files reference directories answer)
    (same : ∀ path ∈ files.upToFile (candidatesBelow reference directories),
      other.probeFile path = files.probeFile path) :
    SearchEnds other reference directories answer := by
  induction ends with
  | nowhere => exact .nowhere
  | @here directory tried directories before behind candidates absent probed =>
      rw [candidatesBelow, List.flatMap_cons, ← eq_withLess_of_candidates? candidates,
        List.append_assoc, FileSystem.upToFile_append (isFile_of_absent absent), List.cons_append,
        FileSystem.upToFile_cons_of_isFile (FileSystem.isFile_of_probeFile probed)] at same
      refine .here candidates (fun path member => ?_) ?_
      · exact (same path (List.mem_append_left _ member)).trans (absent path member)
      · exact (same tried (List.mem_append_right _ (.head _))).trans probed
  | behind candidates absent ends ih =>
      rw [candidatesBelow, List.flatMap_cons, ← eq_withLess_of_candidates? candidates,
        FileSystem.upToFile_append (isFile_of_absent absent)] at same
      refine .behind candidates (fun path member => ?_) (ih fun path member => ?_)
      · exact (same path (List.mem_append_left _ member)).trans (absent path member)
      · exact same path (List.mem_append_right _ member)

/-! ## Where the paths of a sequence lead -/

theorem isPlain_of_mem_withLess {path tried : Path} (plain : path.IsPlain)
    (member : tried ∈ withLess path) : tried.IsPlain := by
  unfold withLess at member
  split at member
  · rcases List.mem_cons.mp member with rfl | neighbour
    · exact plain
    · obtain ⟨step, down⟩ := isStep_lessName path.name
      rw [List.mem_singleton.mp neighbour]
      exact plain.parent.child step down
  · rw [List.mem_singleton.mp member]
    exact plain

theorem isPlain_of_mem_packageCandidates {tried : Path}
    (settled : Inlay.IsSettled files.workingDirectory) (tidy : start.IsTidy)
    (plainRoots : ∀ root ∈ roots, root.IsPlain)
    (down : parentPart ∉ (Path.ofText reference).parts)
    (member : tried ∈ packageCandidates files.workingDirectory reference start roots) :
    tried.IsPlain := by
  obtain ⟨directory, listed, among⟩ := List.mem_flatMap.mp member
  suffices plain : directory.IsPlain from
    isPlain_of_mem_withLess (plain.join ⟨Path.isTidy_ofText reference, down⟩) among
  rcases List.mem_append.mp listed with package | root
  · obtain ⟨above, member, rfl⟩ := List.mem_map.mp package
    have front := (List.mem_inits above _).mp (List.mem_reverse.mp member)
    have whole := Path.isPlain_absolute settled tidy
    have plain : Path.IsPlain ⟨.root, above⟩ :=
      ⟨fun part inside => whole.tidy part (front.subset inside),
        fun inside => whole.down (front.subset inside)⟩
    exact plain.child ⟨by decide, by decide⟩ (by decide)
  · exact plainRoots directory root

/-! ## The answer of a search for a package -/

/-- The same directories stand in both file systems, and no file has come to a location to which
one of the paths leads, or gone from it. -/
structure DiffersElsewhere (files other : FileSystem) (paths : List Path) : Prop where
  shares : files.SharesDirectories other
  kept : ∀ path ∈ paths, ∀ location, files.locate path = .ok location →
    (other.HoldsFile location ↔ files.HoldsFile location)

/-- Two file systems that can come about, with files at the same ones of the locations that the
paths spell. Directories may have come or gone with other files. -/
structure DiffersAround (files other : FileSystem) (paths : List Path) : Prop where
  sound : files.IsSound
  sound' : other.IsSound
  workingDirectory : other.workingDirectory = files.workingDirectory
  kept : ∀ path ∈ paths,
    (other.HoldsFile (path.absolute files.workingDirectory).parts ↔
      files.HoldsFile (path.absolute files.workingDirectory).parts)

/-- A file that is put where none of the paths leads makes no difference to them. -/
theorem differsElsewhere_put {location : Location} {paths : List Path} (below : location ≠ [])
    (apart : files.find? location ≠ some .directory)
    (missed : ∀ path ∈ paths, files.locate path ≠ .ok location) (bytes : Bytes) :
    DiffersElsewhere files (files.put location (.file bytes)) paths := by
  refine ⟨⟨?_, fun place => ?_⟩, fun path member place located => ?_⟩
  · unfold FileSystem.put
    split <;> rfl
  · by_cases same : place = location
    · rw [same, files.find?_put_self below]
      exact iff_of_false nofun apart
    · rw [files.find?_put_of_ne same]
  · have other : place ≠ location := fun same => missed path member (same ▸ located)
    unfold FileSystem.HoldsFile
    rw [files.find?_put_of_ne other]

theorem result_resolvePackage_eq_ok_iff :
    (resolvePackage resolve reference start roots).result files = .ok answer ↔
      start.refusal? = none ∧ ∃ first,
        SearchEnds files reference (packageDirectories resolve start roots) first ∧
          answer = first.map resolve := by
  unfold resolvePackage
  cases refused : start.refusal? with
  | some fault => simp [Inquiry.result]
  | none => simp [result_searchIn_eq_ok_iff]

theorem DiffersAround.isFile_eq {paths : List Path} (differs : DiffersAround files other paths)
    (settled : Inlay.IsSettled files.workingDirectory) {path : Path} (member : path ∈ paths)
    (plain : path.IsPlain) : other.isFile path = files.isFile path := by
  have settled' : Inlay.IsSettled other.workingDirectory := by
    rw [differs.workingDirectory]
    exact settled
  rw [Bool.eq_iff_iff, differs.sound.isFile_iff settled plain,
    differs.sound'.isFile_iff settled' plain, differs.workingDirectory, differs.kept path member]

/-- A search for a package that ends without a fault leads to the first path of the sequence with a
regular file, and to nothing only if there is none. Files that come or go at locations to which no
path up to this one leads do not change the answer, and without double dots neither do directories,
unless the search then ends in a fault. -/
theorem package_search_is_nearest_first
    (ended : (resolvePackage (Path.absolute files.workingDirectory) reference start roots).result
      files = .ok answer) :
    answer = ((packageCandidates files.workingDirectory reference start roots).find?
      files.isFile).map (·.absolute files.workingDirectory) ∧
    (answer = none ↔ ∀ path ∈ packageCandidates files.workingDirectory reference start roots,
      files.isFile path = false) ∧
    (∀ other : FileSystem,
      DiffersElsewhere files other
        (files.upToFile (packageCandidates files.workingDirectory reference start roots)) →
      (resolvePackage (Path.absolute files.workingDirectory) reference start roots).result other =
        .ok answer) ∧
    (Inlay.IsSettled files.workingDirectory → start.IsTidy →
      (∀ root ∈ roots, root.IsPlain) → parentPart ∉ (Path.ofText reference).parts →
      ∀ (other : FileSystem) (answer' : Option Path),
        DiffersAround files other
          (files.upToFile (packageCandidates files.workingDirectory reference start roots)) →
        (resolvePackage (Path.absolute files.workingDirectory) reference start roots).result other =
          .ok answer' → answer' = answer) := by
  obtain ⟨followed, first, ends, rfl⟩ := result_resolvePackage_eq_ok_iff.mp ended
  have found := ends.eq_find?
  rw [← packageCandidates_eq] at found
  refine ⟨by rw [found], ?_, fun other differs => ?_,
    fun settled tidy plainRoots down other answer' differs ended' => ?_⟩
  · rw [Option.map_eq_none_iff, found, List.find?_eq_none]
    simp only [Bool.not_eq_true]
  · refine result_resolvePackage_eq_ok_iff.mpr ⟨followed, first, ends.transfer ?_, rfl⟩
    rw [← packageCandidates_eq]
    exact fun path member => differs.shares.probeFile_eq (differs.kept path member)
  · -- Here the answers to the questions may differ in faults, so both answers are compared.
    obtain ⟨-, first', ends', rfl⟩ := result_resolvePackage_eq_ok_iff.mp ended'
    have found' := ends'.eq_find?
    rw [← packageCandidates_eq] at found'
    rw [found', found, FileSystem.find?_isFile_congr fun path member => ?_]
    exact differs.isFile_eq settled member (isPlain_of_mem_packageCandidates settled tidy
      plainRoots down (FileSystem.upToFile_subset _ member))

/-- A package with two directories above: the nearer one has the file with the extension, the
farther one the file without. -/
def nestedPackages : FileSystem where
  entries :=
    [(["p"], .directory), (["p", "q"], .directory), (["p", "node_modules"], .directory),
     (["p", "node_modules", "theme.less"], .file []), (["node_modules"], .directory),
     (["node_modules", "theme"], .file []), (["vendor"], .directory)]
  workingDirectory := []

theorem package_search_of_nestedPackages :
    (packageCandidates [] "theme" (Path.ofText "p/q") [Path.ofText "vendor"]).find?
        nestedPackages.isFile = some (Path.ofText "/p/node_modules/theme.less") ∧
      (resolvePackage (Path.absolute []) "theme" (Path.ofText "p/q") [Path.ofText "vendor"]).result
          (nestedPackages.put ["vendor", "theme"] (.file [])) =
        .ok (some (Path.ofText "/p/node_modules/theme.less")) := by
  have ended : (resolvePackage (Path.absolute nestedPackages.workingDirectory) "theme"
      (Path.ofText "p/q") [Path.ofText "vendor"]).result nestedPackages =
        .ok (some (Path.ofText "/p/node_modules/theme.less")) := by decide +kernel
  obtain ⟨-, -, stable, -⟩ := package_search_is_nearest_first ended
  refine ⟨by decide +kernel, stable _ (differsElsewhere_put (by decide) (by decide) ?_ [])⟩
  decide +kernel

end Stylesheet

end Inlay
