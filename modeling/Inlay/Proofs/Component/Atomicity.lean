import Mathlib.Control.Monad.Basic
import Inlay.Proofs.Component.Revision

/-!
# What a failed transformation leaves behind

A transformation that fails leaves every file as it was, with one exception: where the new
text of the source has no bytes in the encoding of the run, the source is empty afterwards
and all its content is lost.
-/

set_option autoImplicit false

namespace Inlay.Component

/-- The codec of a run has no bytes for the new text of a source file. -/
def IsUnwritable (setting : Setting) (files : FileSystem) (path : Path) : Prop :=
  ∃ (revision : Revision setting files path) (failure : EncodingFailure),
    revision.codec.encode revision.text = .error failure

variable {setting : Setting} {files : FileSystem} {path : Path}

theorem not_isUnwritable_of_inlineFile_error {fault : Fault}
    (failed : (inlineFile setting path).result files = .error fault) :
    ¬ IsUnwritable setting files path := by
  rintro ⟨revision, _, _⟩
  rw [revision.result_inlineFile] at failed
  cases failed

theorem Revision.put_ne (revision : Revision setting files path) :
    files.put revision.location (.file []) ≠ files :=
  FileSystem.put_file_ne revision.found revision.bytes_ne_nil

/-- A failed transformation changes no file exactly if the new text is not to blame. Otherwise
the source, which held some bytes, is empty, and the entries elsewhere are the old ones. -/
theorem files_of_failed_transform {fault : Fault}
    (failed : (transformFile setting files path).result = .error fault) :
    ((transformFile setting files path).files = files ↔ ¬ IsUnwritable setting files path) ∧
      (IsUnwritable setting files path →
        ∃ location bytes, files.locate path = .ok location ∧
          files.find? location = some (.file bytes) ∧ bytes ≠ [] ∧
          (transformFile setting files path).files.find? location = some (.file []) ∧
          ∀ other, other ≠ location →
            (transformFile setting files path).files.find? other = files.find? other) := by
  rcases transformFile_cases setting files path with
    ⟨_, inlining, kept, _⟩ | ⟨_, _, done⟩ | ⟨revision, refused, encoded, emptied, _⟩ |
      ⟨_, _, _, _, done⟩
  · have writable := not_isUnwritable_of_inlineFile_error inlining
    exact ⟨iff_of_true kept writable, fun unwritable => absurd unwritable writable⟩
  · rw [done] at failed
    cases failed
  · have unwritable : IsUnwritable setting files path := ⟨revision, refused, encoded⟩
    rw [emptied]
    refine ⟨iff_of_false revision.put_ne fun writable => writable unwritable, fun _ => ?_⟩
    refine ⟨revision.location, revision.bytes, revision.located, revision.found,
      revision.bytes_ne_nil, ?_, fun other apart => files.find?_put_of_ne apart _⟩
    exact files.find?_put_self (FileSystem.ne_nil_of_find?_file revision.found) _
  · rw [done] at failed
    cases failed

def asciiSetting : Setting := ⟨{ encodingName := "ascii" }, [], .common .ok⟩

/-- A component whose stylesheet imports a letter that ASCII does not have. -/
def accentedProject : FileSystem where
  entries :=
    [(["a.ts"], .file (Utf8.encode "styleUrls:['a.less']")),
     (["a.less"], .file (Utf8.encode "@import 'b.less';")),
     (["b.less"], .file (Utf8.encode "é"))]
  workingDirectory := []

def templatelessProject : FileSystem where
  entries := [(["a.ts"], .file (Utf8.encode "templateUrl: 'a.html'"))]
  workingDirectory := []

theorem files_of_failed_transform_templateless :
    (transformFile asciiSetting templatelessProject (Path.ofText "a.ts")).result =
        .error (.resourceNotFound "a.html" none) ∧
      (transformFile asciiSetting templatelessProject (Path.ofText "a.ts")).files =
        templatelessProject := by
  have failed : (transformFile asciiSetting templatelessProject (Path.ofText "a.ts")).result =
      .error (.resourceNotFound "a.html" none) := by decide +kernel
  have inlining : (inlineFile asciiSetting (Path.ofText "a.ts")).result templatelessProject =
      .error (.resourceNotFound "a.html" none) := by decide +kernel
  refine ⟨failed, (files_of_failed_transform failed).1.mpr ?_⟩
  exact not_isUnwritable_of_inlineFile_error inlining

theorem failed_transform_may_empty_source :
    ¬ ∀ (setting : Setting) (files : FileSystem) (path : Path) (fault : Fault),
      (transformFile setting files path).result = .error fault →
        (transformFile setting files path).files = files := by
  intro keeps
  have kept := keeps asciiSetting accentedProject (Path.ofText "a.ts")
    (.encoding (.chars ⟨"ascii", .beyond 128, 'é', 10, 1⟩)) (by decide +kernel)
  revert kept
  decide +kernel

end Inlay.Component
