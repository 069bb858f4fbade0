import Inlay.Component.Transform
import Inlay.Proofs.Files.Writing

/-!
# Revisions of source files

A source file that reading and inlining give a new text has a revision: the place of the file,
its bytes, its codec, its old and its new text. Transforming a file fails without a
revision, leaves the file alone without one, fails with the file emptied where the new text
has no bytes, or replaces the content of the file (`transformFile_cases`).
-/

set_option autoImplicit false

namespace Inlay

namespace Inquiry

/-- Whether the name of an encoding is accepted does not depend on the files. -/
theorem result_checkEncodingName (files other : FileSystem) (name : Text) :
    (checkEncodingName name).result files = (checkEncodingName name).result other := by
  unfold checkEncodingName
  split
  · rfl
  · split
    · rfl
    · rfl

/-- A text that was read comes from the bytes of the file, by the codec of that name. -/
theorem readExact_eq_ok_iff {files : FileSystem} {charset : Charset} {text : Text} {path : Path} :
    (readExact charset path).result files = .ok text ↔
      (checkEncodingName charset.name).result files = .ok () ∧
        ∃ bytes codec, files.read path = .ok bytes ∧
          charset.codec = .ok codec ∧ codec.decode bytes = .ok text := by
  unfold readExact
  rw [result_bind]
  cases (checkEncodingName charset.name).result files with
  | error fault => simp
  | ok accepted =>
      simp only [result, true_and]
      cases files.read path with
      | error fault => simp [result]
      | ok bytes =>
          simp only [result_ofExcept, Charset.decode, Except.ok.injEq]
          cases charset.codec with
          | error refusal => simp
          | ok codec => cases decoded : codec.decode bytes <;> simp [decoded]

end Inquiry

namespace Component

theorem result_inlineContent_nil (setting : Setting) (race : Race) (files : FileSystem)
    (resolve : Text → Path) : (inlineContent setting race resolve []).result files = .ok [] := rfl

/-- A source file that has a new text. -/
structure Revision (setting : Setting) (files : FileSystem) (path : Path) where
  location : Location
  bytes : Bytes
  codec : Codec
  content : Text
  text : Text
  accepted : (Inquiry.checkEncodingName setting.charset.name).result files = .ok ()
  located : files.locate path = .ok location
  found : files.find? location = some (.file bytes)
  named : setting.charset.codec = .ok codec
  decoded : codec.decode bytes = .ok content
  inlined :
    (inlineContent setting (setting.host.race path) (resolveFrom path) content).result files =
      .ok text
  changed : text ≠ content

variable {setting : Setting} {files : FileSystem} {path : Path}

theorem Revision.bytes_ne_nil (revision : Revision setting files path) :
    revision.bytes ≠ [] := by
  intro empty
  have nothing : revision.content = [] := revision.codec.decode_nil (empty ▸ revision.decoded)
  have inlined := revision.inlined
  rw [nothing, result_inlineContent_nil, Except.ok.injEq] at inlined
  exact revision.changed (inlined.symm.trans nothing.symm)

theorem revision_of_inlineFile {text : Text}
    (done : (inlineFile setting path).result files = .ok (some text)) :
    ∃ revision : Revision setting files path, revision.text = text := by
  unfold inlineFile at done
  rw [Inquiry.result_bind] at done
  split at done
  · next content contentRead =>
      rw [Inquiry.result_bind] at done
      split at done
      · next revised inlining =>
          simp only [Inquiry.result_pure, Except.ok.injEq] at done
          split at done
          · cases done
          · next changed =>
              cases done
              obtain ⟨accepted, bytes, codec, bytesRead, named, decoded⟩ :=
                Inquiry.readExact_eq_ok_iff.mp contentRead
              obtain ⟨location, located, found⟩ := FileSystem.read_eq_ok_iff.mp bytesRead
              exact ⟨⟨location, bytes, codec, content, text, accepted, located, found,
                named, decoded, inlining, changed⟩, rfl⟩
      · cases done
  · cases done

theorem Revision.contentRead (revision : Revision setting files path) :
    (Inquiry.readExact setting.charset path).result files = .ok revision.content :=
  Inquiry.readExact_eq_ok_iff.mpr ⟨revision.accepted, revision.bytes, revision.codec,
    FileSystem.read_eq_ok_iff.mpr ⟨revision.location, revision.located, revision.found⟩,
    revision.named, revision.decoded⟩

theorem Revision.result_inlineFile (revision : Revision setting files path) :
    (inlineFile setting path).result files = .ok (some revision.text) := by
  simp [inlineFile, revision.contentRead, revision.inlined, revision.changed]

/-- The source is emptied before its new text is encoded, and what the encoding refuses is
never written. -/
theorem Revision.writeSource_eq (revision : Revision setting files path) :
    writeSource files setting.charset path revision.text =
      match revision.codec.encode revision.text with
      | .error failure => (files.put revision.location (.file []), .error (.encoding failure))
      | .ok bytes => (files.put revision.location (.file bytes), .ok ()) := by
  unfold writeSource Charset.encode
  rw [FileSystem.write_of_find?_file revision.located revision.found, revision.named]
  cases encoded : revision.codec.encode revision.text with
  | error failure => simp [encoded]
  | ok bytes =>
      simp only [encoded, mapError_ok]
      rw [FileSystem.write_of_find?_file revision.located revision.found]

/-- What transforming a source file does to the files, and how it ends. -/
theorem transformFile_cases (setting : Setting) (files : FileSystem) (path : Path) :
    (∃ fault, (inlineFile setting path).result files = .error fault ∧
      (transformFile setting files path).files = files ∧
      (transformFile setting files path).result = .error fault) ∨
    ((inlineFile setting path).result files = .ok none ∧
      (transformFile setting files path).files = files ∧
      (transformFile setting files path).result = .ok .unchanged) ∨
    (∃ (revision : Revision setting files path) (failure : EncodingFailure),
      revision.codec.encode revision.text = .error failure ∧
      (transformFile setting files path).files =
        files.put revision.location (.file []) ∧
      (transformFile setting files path).result = .error (.encoding failure)) ∨
    (∃ (revision : Revision setting files path) (bytes : Bytes),
      revision.codec.encode revision.text = .ok bytes ∧
      (transformFile setting files path).files =
        files.put revision.location (.file bytes) ∧
      (transformFile setting files path).result = .ok .inlined) := by
  cases inlining : (inlineFile setting path).result files with
  | error fault => exact .inl ⟨fault, rfl, by simp [transformFile, inlining]⟩
  | ok outcome =>
      cases outcome with
      | none => exact .inr (.inl ⟨rfl, by simp [transformFile, inlining, commit]⟩)
      | some text =>
          obtain ⟨revision, rfl⟩ := revision_of_inlineFile inlining
          have writing := revision.writeSource_eq
          cases encoded : revision.codec.encode revision.text with
          | error failure =>
              simp only [encoded] at writing
              refine .inr (.inr (.inl ⟨revision, failure, encoded, ?_⟩))
              simp [transformFile, inlining, commit, writing]
          | ok bytes =>
              simp only [encoded] at writing
              refine .inr (.inr (.inr ⟨revision, bytes, encoded, ?_⟩))
              simp [transformFile, inlining, commit, writing]

end Component

end Inlay
