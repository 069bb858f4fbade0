import Inlay.Proofs.Files.Soundness

/-!
# What is answered about a path

A path under which there is no file to be read leads to a directory, to a place below a regular
file, or to a place where nothing stands, unless it cannot be asked for at all
(`read_eq_notFound_iff`, `read_eq_notDirectory_iff`). Where the same directories stand, a question
for a file has the same answer if no file has come or gone where the path leads
(`SharesDirectories.probeFile_eq`).
-/

set_option autoImplicit false

namespace Inlay.FileSystem

variable {files other : FileSystem} {path : Path} {location : Location}

/-! ## Paths that lead to no file -/

/-- A path that can be asked for: it has a spelling in bytes, and not too many of them. -/
def IsAskable (path : Path) : Prop :=
  refusal? path.text = none ∧ isLonger longestPath path.text = false

/-- Where the parts of a path are followed from. -/
def startOf (files : FileSystem) (path : Path) : Location :=
  if path.isAnchored then [] else files.workingDirectory

/-- Following the parts of a path, or some of them, one comes to a place where nothing stands. -/
def LeadsToNothing (files : FileSystem) (path : Path) : Prop :=
  ∃ front behind place, path.parts = front ++ behind ∧
    files.walk (files.startOf path) front = .ok place ∧ files.find? place = none

/-- Following the parts of a path one comes to a regular file while there are parts left. -/
def LeadsBelowFile (files : FileSystem) (path : Path) : Prop :=
  ∃ front part behind place bytes, path.parts = front ++ part :: behind ∧
    files.walk (files.startOf path) front = .ok place ∧ files.find? place = some (.file bytes)

theorem locate_of_askable (askable : IsAskable path) :
    files.locate path = files.walk (files.startOf path) path.parts := by
  unfold locate
  rw [askable.1, askable.2]
  rfl

theorem locate_error_of_not_askable (files : FileSystem) (unaskable : ¬ IsAskable path) :
    ∃ fault, files.locate path = .error fault ∧
      fault ≠ .notFound ∧ fault ≠ .notDirectory ∧ fault ≠ .isDirectory := by
  unfold locate
  cases refused : refusal? path.text with
  | some fault =>
      refine ⟨fault, rfl, ?_⟩
      unfold refusal? at refused
      split at refused
      · cases refused
        exact ⟨nofun, nofun, nofun⟩
      · split at refused
        · cases refused
          exact ⟨nofun, nofun, nofun⟩
        · cases refused
  | none =>
      have long : isLonger longestPath path.text = true :=
        (Bool.not_eq_false _).mp fun short => unaskable ⟨refused, short⟩
      exact ⟨.nameTooLong, by simp [long], nofun, nofun, nofun⟩

theorem isAskable_of_locate (located : files.locate path = .ok location) : IsAskable path := by
  by_cases askable : IsAskable path
  · exact askable
  · obtain ⟨fault, failed, -⟩ := locate_error_of_not_askable files askable
    cases failed.symm.trans located

theorem leadsToNothing_iff :
    files.LeadsToNothing path ↔
      files.walk (files.startOf path) path.parts = .error .notFound ∨
        ∃ location, files.walk (files.startOf path) path.parts = .ok location ∧
          files.find? location = none := by
  constructor
  · intro ⟨front, behind, place, split, walked, nothing⟩
    rw [split]
    cases behind with
    | nil => exact .inr ⟨place, by rw [List.append_nil, walked], nothing⟩
    | cons part behind =>
        exact .inl (walk_eq_error_iff.mpr
          ⟨front, part, behind, place, rfl, walked, .nothing nothing⟩)
  · intro leads
    rcases leads with stopped | ⟨location, walked, nothing⟩
    · obtain ⟨front, part, behind, place, split, walked, stops⟩ := walk_eq_error_iff.mp stopped
      cases stops with
      | nothing absent => exact ⟨front, part :: behind, place, split, walked, absent⟩
    · exact ⟨path.parts, [], location, (List.append_nil _).symm, walked, nothing⟩

theorem leadsBelowFile_iff :
    files.LeadsBelowFile path ↔
      files.walk (files.startOf path) path.parts = .error .notDirectory := by
  rw [walk_eq_error_iff]
  constructor
  · intro ⟨front, part, behind, place, bytes, split, walked, found⟩
    exact ⟨front, part, behind, place, split, walked, .file found⟩
  · intro ⟨front, part, behind, place, split, walked, stops⟩
    cases stops with
    | file found => exact ⟨front, part, behind, place, _, split, walked, found⟩

theorem read_of_locate_error {fault : AccessFault} (failed : files.locate path = .error fault) :
    files.read path = .error fault := by
  rw [read, lookup, failed]
  rfl

theorem read_of_locate (located : files.locate path = .ok location) :
    files.read path = ((files.find? location).elim (.error .notFound) contentOf) := by
  rw [read, lookup, located]
  dsimp only
  cases files.find? location <;> rfl

theorem read_eq_notFound_iff :
    files.read path = .error .notFound ↔ IsAskable path ∧ files.LeadsToNothing path := by
  by_cases askable : IsAskable path
  · rw [leadsToNothing_iff, ← locate_of_askable askable, and_iff_right askable]
    cases located : files.locate path with
    | error fault => simp [read_of_locate_error located]
    | ok location =>
        rw [read_of_locate located]
        cases found : files.find? location with
        | none => simp [found]
        | some entry => cases entry <;> simp [found, contentOf]
  · obtain ⟨fault, failed, other, -⟩ := locate_error_of_not_askable files askable
    simp [read_of_locate_error failed, askable, other]

theorem read_eq_notDirectory_iff :
    files.read path = .error .notDirectory ↔ IsAskable path ∧ files.LeadsBelowFile path := by
  by_cases askable : IsAskable path
  · rw [leadsBelowFile_iff, ← locate_of_askable askable, and_iff_right askable]
    cases located : files.locate path with
    | error fault => simp [read_of_locate_error located]
    | ok location =>
        rw [read_of_locate located]
        cases found : files.find? location with
        | none => simp
        | some entry => cases entry <;> simp [contentOf]
  · obtain ⟨fault, failed, -, other, -⟩ := locate_error_of_not_askable files askable
    simp [read_of_locate_error failed, askable, other]

theorem read_of_isDirectory (directory : files.isDirectory path = true) :
    files.read path = .error .isDirectory := by
  unfold isDirectory at directory
  split at directory
  · next looked =>
      rw [read, looked]
      rfl
  · cases directory

theorem read_of_not_isFile (missing : ¬ files.isFile path = true) :
    ∃ fault, files.read path = .error fault := by
  cases answer : files.read path with
  | error fault => exact ⟨fault, rfl⟩
  | ok bytes =>
      obtain ⟨location, located, found⟩ := read_eq_ok_iff.mp answer
      exact absurd (isFile_iff.mpr ⟨location, bytes, located, found⟩) missing

/-! ## Answers among the same directories -/

theorem SharesDirectories.locate (shares : SharesDirectories files other) (path : Path) :
    EndAlike (files.locate path) (other.locate path) := by
  unfold FileSystem.locate
  rw [shares.workingDirectory]
  split
  · exact .inl rfl
  · split
    · exact .inl rfl
    · exact shares.walk _ _

theorem probeFile_of_locate_error {fault : AccessFault}
    (failed : files.locate path = .error fault) (short : fault ≠ .nameTooLong) :
    files.probeFile path = .ok false := by
  unfold probeFile look lookup
  rw [failed]
  cases fault <;> first | exact absurd rfl short | rfl

def HoldsFile (files : FileSystem) (location : Location) : Prop :=
  ∃ bytes, files.find? location = some (.file bytes)

theorem probeFile_of_holdsFile (located : files.locate path = .ok location)
    (holds : files.HoldsFile location) : files.probeFile path = .ok true := by
  obtain ⟨bytes, found⟩ := holds
  unfold probeFile look
  rw [lookup_eq_ok_iff.mpr ⟨location, located, found⟩]
  rfl

theorem probeFile_of_not_holdsFile (located : files.locate path = .ok location)
    (without : ¬ files.HoldsFile location) : files.probeFile path = .ok false := by
  unfold probeFile look lookup
  rw [located]
  dsimp only
  cases found : files.find? location with
  | none => rfl
  | some entry =>
      cases entry with
      | directory => rfl
      | file bytes => exact absurd ⟨bytes, found⟩ without

/-- Where the same directories stand, the answers to a question for a file are the same if no file
has come to the location that is asked for, or gone from it. -/
theorem SharesDirectories.probeFile_eq (shares : SharesDirectories files other)
    (kept : ∀ location, files.locate path = .ok location →
      (other.HoldsFile location ↔ files.HoldsFile location)) :
    other.probeFile path = files.probeFile path := by
  rcases shares.locate path with same | ⟨fault, fault', failed, failed', short, short'⟩
  · cases located : files.locate path with
    | error fault =>
        rw [located] at same
        unfold probeFile look lookup
        rw [same, located]
    | ok location =>
        rw [located] at same
        by_cases holds : files.HoldsFile location
        · rw [probeFile_of_holdsFile located holds,
            probeFile_of_holdsFile same ((kept location located).mpr holds)]
        · rw [probeFile_of_not_holdsFile located holds, probeFile_of_not_holdsFile same
            fun held => holds ((kept location located).mp held)]
  · rw [probeFile_of_locate_error failed short, probeFile_of_locate_error failed' short']

/-! ## Files of sound file systems -/

theorem parts_absolute_of_settled {workingDirectory : Location}
    (settled : IsSettled workingDirectory) (down : parentPart ∉ path.parts) :
    (path.absolute workingDirectory).parts =
      (if path.isAnchored then [] else workingDirectory) ++ path.parts := by
  have above : parentPart ∉ workingDirectory := fun member => (settled _ member).2 rfl
  unfold Path.absolute normalParts
  split
  · simp [foldl_pushPart_of_settled down]
  · simp [foldl_pushPart_of_settled down, foldl_pushPart_of_settled above]

/-- Without double dots, a path leads to a regular file exactly if it can be asked for and one
stands at the location that it spells. -/
theorem IsSound.isFile_iff (sound : files.IsSound) (settled : IsSettled files.workingDirectory)
    (plain : path.IsPlain) :
    files.isFile path = true ↔
      IsAskable path ∧ files.HoldsFile (path.absolute files.workingDirectory).parts := by
  rw [FileSystem.isFile_iff]
  constructor
  · intro ⟨location, bytes, located, found⟩
    refine ⟨isAskable_of_locate located, bytes, ?_⟩
    rw [absolute_of_locate settled plain.tidy located]
    exact found
  · intro ⟨askable, bytes, found⟩
    have spelled := parts_absolute_of_settled settled plain.down
    refine ⟨_, bytes, ?_, found⟩
    rw [locate_of_askable askable, spelled]
    rw [spelled] at found
    exact sound.walk_append found

end Inlay.FileSystem
