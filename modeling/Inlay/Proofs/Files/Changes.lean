import Mathlib.Control.Monad.Basic
import Mathlib.Logic.Function.Basic
import Inlay.Proofs.Files.Writing

/-!
# Changes to existing files

Writing to files that exist gives some of them a new content and changes nothing else. After
any number of such writes every path leads where it led, the same paths lead to files, and
only the files that were written read differently.
-/

set_option autoImplicit false

namespace Inlay

/-- Two paths lead to the same location. -/
def FileSystem.LeadTogether (files : FileSystem) (path other : Path) : Prop :=
  ∃ location, files.locate path = .ok location ∧ files.locate other = .ok location

instance (files : FileSystem) (path other : Path) : Decidable (files.LeadTogether path other) :=
  match located : files.locate path with
  | .error _ => isFalse fun ⟨_, first, _⟩ => by rw [located] at first; cases first
  | .ok location =>
      decidable_of_iff (files.locate other = .ok location) <| by
        simp [FileSystem.LeadTogether, located]

theorem FileSystem.LeadTogether.symm {files : FileSystem} {path other : Path}
    (together : files.LeadTogether path other) : files.LeadTogether other path := by
  obtain ⟨location, first, second⟩ := together
  exact ⟨location, second, first⟩

/-- A new content for some of the files. -/
structure Changes (files : FileSystem) where
  content : Location → Option Bytes
  onFiles : ∀ {location : Location} {bytes : Bytes}, content location = some bytes →
    ∃ old, files.find? location = some (.file old)

namespace Changes

variable {files : FileSystem} {location : Location} {path : Path} {old : Bytes}

def none (files : FileSystem) : Changes files := ⟨fun _ => .none, nofun⟩

def set (changes : Changes files) (found : files.find? location = some (.file old))
    (bytes : Bytes) : Changes files where
  content := Function.update changes.content location (some bytes)
  onFiles := by
    intro place new changed
    by_cases here : place = location
    · exact ⟨old, here ▸ found⟩
    · rw [Function.update_of_ne here] at changed
      exact changes.onFiles changed

def apply (changes : Changes files) : FileSystem :=
  { files with
    entries := files.entries.map fun entry =>
      (entry.1, ((changes.content entry.1).map .file).getD entry.2) }

def under? (changes : Changes files) (path : Path) : Option Bytes :=
  (files.locate path).toOption.bind changes.content

theorem apply_none : (none files).apply = files := by
  simp [apply, none]

variable (changes : Changes files)

theorem under?_of_locate (located : files.locate path = .ok location) :
    changes.under? path = changes.content location := by
  simp [under?, located, Except.toOption]

theorem content_set_of_ne {place : Location} (apart : place ≠ location)
    (found : files.find? location = some (.file old)) (bytes : Bytes) :
    (changes.set found bytes).content place = changes.content place :=
  Function.update_of_ne apart _ _

theorem under?_eq_some_iff {bytes : Bytes} :
    changes.under? path = some bytes ↔
      ∃ location, files.locate path = .ok location ∧ changes.content location = some bytes := by
  unfold under?
  cases files.locate path <;> simp [Except.toOption]

theorem under?_eq_none (apart : ∀ location bytes, changes.content location = some bytes →
    files.locate path ≠ .ok location) : changes.under? path = .none := by
  cases held : changes.under? path with
  | none => rfl
  | some bytes =>
      obtain ⟨location, located, content⟩ := changes.under?_eq_some_iff.mp held
      exact absurd located (apart location bytes content)

theorem under?_set (located : files.locate path = .ok location)
    (found : files.find? location = some (.file old)) (bytes : Bytes) :
    (changes.set found bytes).under? path = some bytes := by
  rw [under?_of_locate _ located]
  exact Function.update_self _ _ _

variable {changes} in
/-- Where only the file of one path has changed, what other paths lead to has not. -/
theorem under?_eq_of_others {later : Changes files} {other : Path}
    (others : ∀ place, files.locate path ≠ .ok place →
      later.content place = changes.content place)
    (apart : ¬ files.LeadTogether path other) : later.under? other = changes.under? other := by
  cases located : files.locate other with
  | error fault => simp [under?, located, Except.toOption]
  | ok location =>
      rw [later.under?_of_locate located, changes.under?_of_locate located]
      exact others location fun leads => apart ⟨location, leads, located⟩

variable {changes} in
theorem owned_of_others {later : Changes files} {paths : List Path} {bytes : Bytes}
    (others : ∀ place, files.locate path ≠ .ok place →
      later.content place = changes.content place) (among : path ∈ paths)
    (owned : ∀ {location : Location} {bytes : Bytes}, changes.content location = some bytes →
      ∃ path ∈ paths, files.locate path = .ok location)
    (changed : later.content location = some bytes) :
    ∃ path ∈ paths, files.locate path = .ok location := by
  by_cases leads : files.locate path = .ok location
  · exact ⟨path, among, leads⟩
  · rw [others location leads] at changed
    exact owned changed

theorem set_set (found : files.find? location = some (.file old)) (first second : Bytes) :
    (changes.set found first).set found second = changes.set found second := by
  simp [set]

/-! ## What the changed files answer -/

theorem find?_apply (location : Location) :
    changes.apply.find? location =
      ((changes.content location).map .file).or (files.find? location) := by
  cases changed : changes.content location with
  | none =>
      unfold FileSystem.find?
      by_cases root : location = []
      · simp [root]
      · rw [if_neg root, if_neg root, apply, List.find?_map]
        change Option.map _ (Option.map _ (files.entries.find? (FileSystem.standsAt location))) = _
        cases stands : files.entries.find? (FileSystem.standsAt location) with
        | none => rfl
        | some entry =>
            have here := FileSystem.standsAt_iff.mp (List.find?_some stands)
            simp [here, changed]
  | some bytes =>
      obtain ⟨old, found⟩ := changes.onFiles changed
      have below := FileSystem.ne_nil_of_find?_file found
      unfold FileSystem.find? at found ⊢
      rw [if_neg below] at found
      rw [if_neg below, apply, List.find?_map]
      change Option.map _ (Option.map _ (files.entries.find? (FileSystem.standsAt location))) = _
      obtain ⟨entry, stands, _⟩ := Option.map_eq_some_iff.mp found
      have here := FileSystem.standsAt_iff.mp (List.find?_some stands)
      simp [stands, here, changed]

/-- What stands at a location is the same, or a file as before. -/
theorem find?_apply_cases (location : Location) :
    changes.apply.find? location = files.find? location ∨
      ∃ old new, files.find? location = some (.file old) ∧
        changes.apply.find? location = some (.file new) := by
  rw [find?_apply]
  cases changed : changes.content location with
  | none => exact .inl rfl
  | some bytes =>
      obtain ⟨old, found⟩ := changes.onFiles changed
      exact .inr ⟨old, bytes, found, rfl⟩

theorem walk_apply (location : Location) (parts : List Text) :
    changes.apply.walk location parts = files.walk location parts := by
  induction parts generalizing location with
  | nil => rfl
  | cons part parts ih =>
      unfold FileSystem.walk
      rcases changes.find?_apply_cases location with same | ⟨_, _, before, after⟩
      · rw [same]
        simp only [ih]
      · rw [before, after]

theorem locate_apply (path : Path) : changes.apply.locate path = files.locate path := by
  unfold FileSystem.locate
  simp only [walk_apply]
  rfl

theorem probeFile_apply (path : Path) : changes.apply.probeFile path = files.probeFile path := by
  unfold FileSystem.probeFile FileSystem.look FileSystem.lookup
  rw [locate_apply]
  cases files.locate path with
  | error fault => rfl
  | ok location =>
      rcases changes.find?_apply_cases location with same | ⟨_, _, before, after⟩
      · simp only [same]
      · simp only [before, after]
        rfl

theorem read_apply (untouched : changes.under? path = .none) :
    changes.apply.read path = files.read path := by
  unfold FileSystem.read FileSystem.lookup
  rw [locate_apply]
  cases located : files.locate path with
  | error fault => rfl
  | ok location =>
      rw [under?_of_locate _ located] at untouched
      simp [find?_apply, untouched]

/-- A path is read with the new content of the file that it leads to, or as before. -/
theorem read_apply_eq (path : Path) :
    changes.apply.read path = (changes.under? path).elim (files.read path) .ok := by
  cases held : changes.under? path with
  | none => exact changes.read_apply held
  | some bytes =>
      obtain ⟨location, located, content⟩ := changes.under?_eq_some_iff.mp held
      have leads : changes.apply.locate path = .ok location :=
        (changes.locate_apply path).trans located
      refine FileSystem.read_eq_ok_iff.mpr ⟨location, leads, ?_⟩
      rw [find?_apply, content]
      rfl

theorem put_apply (found : files.find? location = some (.file old)) (bytes : Bytes) :
    changes.apply.put location (.file bytes) = (changes.set found bytes).apply := by
  have below := FileSystem.ne_nil_of_find?_file found
  have stands : changes.apply.entries.any (FileSystem.standsAt location) = true := by
    unfold FileSystem.find? at found
    rw [if_neg below] at found
    obtain ⟨entry, first, _⟩ := Option.map_eq_some_iff.mp found
    have here : FileSystem.standsAt location entry = true := List.find?_some first
    rw [apply, List.any_map]
    exact List.any_eq_true.mpr ⟨entry, List.mem_of_find?_eq_some first, here⟩
  unfold FileSystem.put
  rw [if_pos stands]
  simp only [apply, set, List.map_map, FileSystem.mk.injEq, and_true]
  refine List.map_congr_left fun entry _ => ?_
  by_cases here : entry.1 = location
  · simp [FileSystem.standsAt_iff, here]
  · simp [FileSystem.standsAt_iff, here]

theorem write_apply (located : files.locate path = .ok location)
    (found : files.find? location = some (.file old)) (bytes : Bytes) :
    changes.apply.write path bytes = .ok (changes.set found bytes).apply := by
  rw [← put_apply]
  have stands : ∃ current, changes.apply.find? location = some (.file current) := by
    rcases changes.find?_apply_cases location with same | ⟨_, new, _, after⟩
    · exact ⟨old, same.trans found⟩
    · exact ⟨new, after⟩
  obtain ⟨current, stands⟩ := stands
  exact FileSystem.write_of_find?_file ((changes.locate_apply path).trans located) stands

end Changes

theorem FileSystem.put_eq_apply {files : FileSystem} {location : Location} {old : Bytes}
    (found : files.find? location = some (.file old)) (bytes : Bytes) :
    files.put location (.file bytes) = ((Changes.none files).set found bytes).apply := by
  rw [← Changes.put_apply, Changes.apply_none]

theorem FileSystem.write_put {files : FileSystem} {path : Path} {location : Location}
    {old : Bytes} (located : files.locate path = .ok location)
    (found : files.find? location = some (.file old)) (first second : Bytes) :
    (files.put location (.file first)).write path second =
      .ok (files.put location (.file second)) := by
  rw [put_eq_apply found, put_eq_apply found, Changes.write_apply _ located found, Changes.set_set]

theorem FileSystem.read_put {files : FileSystem} {path : Path} {location : Location}
    {old : Bytes} (located : files.locate path = .ok location)
    (found : files.find? location = some (.file old)) (bytes : Bytes) :
    (files.put location (.file bytes)).read path = .ok bytes := by
  have leads : (files.put location (.file bytes)).locate path = .ok location := by
    rw [put_eq_apply found, Changes.locate_apply, located]
  exact read_eq_ok_iff.mpr
    ⟨location, leads, files.find?_put_self (ne_nil_of_find?_file found) (.file bytes)⟩

end Inlay
