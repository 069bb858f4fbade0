import Inlay.Files.Basic

/-!
# Reading and writing one file

A path that can be read leads to a file, and writing to a path that leads to a file replaces
the content of that file and nothing else.
-/

set_option autoImplicit false

namespace Inlay.FileSystem

variable {files : FileSystem} {path : Path} {location : Location}

theorem lookup_eq_ok_iff {entry : Entry} :
    files.lookup path = .ok entry ↔
      ∃ location, files.locate path = .ok location ∧ files.find? location = some entry := by
  unfold lookup
  cases located : files.locate path with
  | error fault => simp
  | ok location =>
      cases found : files.find? location with
      | none => simp [found]
      | some other => simp [found]

/-- Only a path that is too long leaves the question what stands there without an answer. -/
theorem look_error {fault : AccessFault} (failed : files.look path = .error fault) :
    fault = .nameTooLong := by
  unfold look at failed
  split at failed
  · cases failed
  · cases failed
    rfl
  · cases failed

theorem probeFile_error {cause : AccessFault}
    (failed : files.probeFile path = .error cause) : cause = .nameTooLong := by
  unfold probeFile at failed
  cases looked : files.look path with
  | error fault =>
      rw [looked] at failed
      cases failed
      exact look_error looked
  | ok entry =>
      rw [looked] at failed
      cases failed

theorem isFile_of_probeFile {answer : Bool} (probed : files.probeFile path = .ok answer) :
    files.isFile path = answer := by
  unfold probeFile look at probed
  unfold isFile
  cases looked : files.lookup path with
  | ok entry =>
      rw [looked] at probed
      cases entry <;> exact Except.ok.inj probed
  | error fault =>
      rw [looked] at probed
      cases fault <;> first | exact Except.ok.inj probed | cases probed

/-- Only a directory whose path is too long cannot be listed. -/
theorem list_error {fault : AccessFault} (failed : files.list path = .error fault) :
    fault = .nameTooLong := by
  unfold list at failed
  split at failed
  · cases failed
  · cases failed
    rfl
  · cases failed

theorem read_eq_ok_iff {bytes : Bytes} :
    files.read path = .ok bytes ↔
      ∃ location, files.locate path = .ok location ∧
        files.find? location = some (.file bytes) := by
  rw [← lookup_eq_ok_iff]
  unfold read
  cases looked : files.lookup path with
  | error fault => simp [bind, Except.bind]
  | ok entry => cases entry <;> simp [bind, Except.bind, contentOf]

theorem isFile_iff :
    files.isFile path = true ↔ ∃ location bytes, files.locate path = .ok location ∧
      files.find? location = some (.file bytes) := by
  unfold isFile
  cases looked : files.lookup path with
  | error fault =>
      simp only [Bool.false_eq_true, false_iff]
      rintro ⟨location, bytes, located, found⟩
      rw [lookup_eq_ok_iff.mpr ⟨location, located, found⟩] at looked
      cases looked
  | ok entry =>
      obtain ⟨location, located, found⟩ := lookup_eq_ok_iff.mp looked
      cases entry with
      | directory =>
          simp only [Bool.false_eq_true, false_iff]
          rintro ⟨other, bytes, leads, stands⟩
          rw [located] at leads
          cases leads
          rw [found] at stands
          cases stands
      | file bytes => exact ⟨fun _ => ⟨location, bytes, located, found⟩, fun _ => rfl⟩

theorem write_of_find?_file {old content : Bytes}
    (located : files.locate path = .ok location)
    (found : files.find? location = some (.file old)) :
    files.write path content = .ok (files.put location (.file content)) := by
  simp only [write, located, found]

theorem ne_nil_of_find?_file {bytes : Bytes}
    (found : files.find? location = some (.file bytes)) : location ≠ [] := by
  rintro rfl
  simp [find?] at found

theorem put_file_ne {old content : Bytes}
    (found : files.find? location = some (.file old)) (differ : old ≠ content) :
    files.put location (.file content) ≠ files := by
  intro same
  have stored := files.find?_put_self (ne_nil_of_find?_file found) (.file content)
  rw [same, found] at stored
  simp only [Option.some.injEq, Entry.file.injEq] at stored
  exact differ stored

end Inlay.FileSystem
