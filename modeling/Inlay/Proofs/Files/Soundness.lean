import Inlay.Proofs.Encoding.RoundTrip
import Inlay.Proofs.Files.Canonical
import Inlay.Proofs.Files.Writing
import Inlay.Proofs.Text.SplitOn

/-!
# Sound file systems

A sound file system is one that can come about: every entry stands in a directory, under a name
that a directory can hold. The walk to an entry from the root never fails there, so that a file
can be read at its absolute path unless this path is too long (`read_of_find?_file`).
-/

set_option autoImplicit false

namespace Inlay

/-! ## Characters of names -/

/-- Whether a character may stand in the name of a file. -/
def CodePoint.isNameable (c : CodePoint) : Bool :=
  (!c.isHalf || Utf8.standsForByte c) && c != .char '\x00'

def Nameable (text : Text) : Prop := ∀ c ∈ text, c.isNameable = true

instance (text : Text) : Decidable (Nameable text) :=
  inferInstanceAs (Decidable (∀ c ∈ text, c.isNameable = true))

theorem refusal?_eq_none_iff {text : Text} : refusal? text = none ↔ Nameable text := by
  have halves : Utf8.nameFault? text = none ↔
      ∀ c ∈ text, (!c.isHalf || Utf8.standsForByte c) = true := Utf8.firstHalves?_eq_none_iff
  have both : Nameable text ↔ Utf8.nameFault? text = none ∧ .char '\x00' ∉ text := by
    rw [halves]
    simp only [Nameable, CodePoint.isNameable, Bool.and_eq_true, bne_iff_ne]
    constructor
    · intro nameable
      exact ⟨fun c member => (nameable c member).1, fun member => (nameable _ member).2 rfl⟩
    · intro ⟨whole, unended⟩ c member
      exact ⟨whole c member, fun same => unended (same ▸ member)⟩
  rw [both]
  unfold refusal?
  cases Utf8.nameFault? text <;> simp

namespace Nameable

theorem joinWith {separator : Text} {pieces : List Text} (mark : Nameable separator)
    (nameable : ∀ piece ∈ pieces, Nameable piece) : Nameable (Text.joinWith separator pieces) := by
  induction pieces with
  | nil => exact nofun
  | cons piece pieces ih =>
      have here := nameable piece (.head _)
      cases pieces with
      | nil => exact here
      | cons next pieces =>
          have later := ih fun other member => nameable other (.tail _ member)
          intro c member
          rcases List.mem_append.mp member with front | behind
          · rcases List.mem_append.mp front with inside | between
            · exact here c inside
            · exact mark c between
          · exact later c behind

theorem splitOn {mark : CodePoint} {text : Text} (nameable : Nameable text) :
    ∀ piece ∈ Text.splitOn mark text, Nameable piece := fun _ member c inside =>
  nameable c (Text.mem_of_mem_splitOn member inside).1

theorem text {path : Path} (nameable : ∀ part ∈ path.parts, Nameable part) :
    Nameable path.text := by
  unfold Path.text
  split
  · decide
  · have anchor : Nameable path.anchor.text := by
      cases path.anchor <;> decide
    have slash : Nameable ['/'] := by decide
    intro c member
    rcases List.mem_append.mp member with front | behind
    · exact anchor c front
    · exact slash.joinWith nameable c behind

end Nameable

/-! ## Paths that can be followed -/

theorem trailRefusal?_of_nameable {isAnchored : Bool} {stack parts : List Text}
    (above : ∀ part ∈ stack, Nameable part) (nameable : ∀ part ∈ parts, Nameable part) :
    trailRefusal? isAnchored stack parts = none := by
  induction parts generalizing stack with
  | nil => rfl
  | cons part parts ih =>
      obtain ⟨here, later⟩ := List.forall_mem_cons.mp nameable
      have pushed : ∀ other ∈ pushPart isAnchored stack part, Nameable other := by
        intro other member
        rcases mem_pushPart member with old | rfl
        · exact above other old
        · exact here
      have written : refusal? (Path.text ⟨if isAnchored then .root else .relative,
          (pushPart isAnchored stack part).reverse⟩) = none := by
        refine refusal?_eq_none_iff.mpr (Nameable.text fun other member => ?_)
        exact pushed other (List.mem_reverse.mp member)
      simp only [trailRefusal?, written, ih pushed later]

theorem refusal?_ofText_of_nameable {text : Text} (nameable : Nameable text) :
    (Path.ofText text).refusal? = none := by
  refine trailRefusal?_of_nameable nofun fun part member => ?_
  exact nameable.splitOn part (List.mem_filter.mp member).1

theorem trailRefusal?_of_append {isAnchored : Bool} {stack front behind : List Text}
    (followed : trailRefusal? isAnchored stack (front ++ behind) = none) :
    trailRefusal? isAnchored stack front = none := by
  induction front generalizing stack with
  | nil => rfl
  | cons part front ih =>
      simp only [List.cons_append, trailRefusal?] at followed ⊢
      split at followed
      · cases followed
      · exact ih followed

/-- Where a path can be followed its directory can be. -/
theorem refusal?_parent {path : Path} (followed : path.refusal? = none) :
    path.parent.refusal? = none := by
  obtain ⟨last, whole⟩ := List.dropLast_prefix path.parts
  unfold Path.refusal? at followed ⊢
  rw [← whole] at followed
  exact trailRefusal?_of_append followed

/-! ## Entries -/

namespace FileSystem

/-- What a directory may hold as the name of an entry. -/
structure IsEntryName (name : Text) : Prop where
  step : IsStep name
  down : name ≠ parentPart
  short : isLonger longestName name = false
  nameable : Nameable name

/-- Every entry has a name and stands in a directory. -/
structure IsSound (files : FileSystem) : Prop where
  named : ∀ {location entry}, files.find? location = some entry →
    ∀ part ∈ location, IsEntryName part
  above : ∀ {location part entry}, files.find? (location ++ [part]) = some entry →
    files.find? location = some .directory

variable {files : FileSystem}

theorem IsSound.directory_of_append (sound : files.IsSound) {location below : Location}
    {entry : Entry} (stands : files.find? (location ++ below) = some entry)
    (inside : below ≠ []) : files.find? location = some .directory := by
  induction below generalizing location with
  | nil => exact absurd rfl inside
  | cons part below ih =>
      rw [List.append_cons] at stands
      cases below with
      | nil => exact sound.above (by simpa using stands)
      | cons next below => exact sound.above (ih stands (List.cons_ne_nil _ _))

theorem IsSound.walk_append (sound : files.IsSound) {location below : Location} {entry : Entry}
    (stands : files.find? (location ++ below) = some entry) :
    files.walk location below = .ok (location ++ below) := by
  induction below generalizing location with
  | nil => rw [walk, List.append_nil]
  | cons part below ih =>
      have directory := sound.directory_of_append stands (List.cons_ne_nil _ _)
      have name : IsEntryName part := sound.named stands part (by simp)
      rw [List.append_cons] at stands ⊢
      rw [walk, directory]
      simp only [if_neg (not_or.mpr name.step), if_neg name.down, name.short]
      exact ih stands

theorem IsSound.nameable_text (sound : files.IsSound) {location : Location} {entry : Entry}
    (stands : files.find? location = some entry) : Nameable (Path.text ⟨.root, location⟩) :=
  Nameable.text fun part member => (sound.named stands part member).nameable

/-- A file can be read at its absolute path unless this is too long. -/
theorem IsSound.read_of_find?_file (sound : files.IsSound) {location : Location} {bytes : Bytes}
    (stands : files.find? location = some (.file bytes)) :
    files.read ⟨.root, location⟩ =
      if isLonger longestPath (Path.text ⟨.root, location⟩) then .error .nameTooLong
      else .ok bytes := by
  have unrefused := refusal?_eq_none_iff.mpr (sound.nameable_text stands)
  have walked : files.walk [] location = .ok location := sound.walk_append stands
  have located : files.locate ⟨.root, location⟩ =
      if isLonger longestPath (Path.text ⟨.root, location⟩) then .error .nameTooLong
      else .ok location := by
    rw [locate, unrefused]
    dsimp only [Path.isAnchored]
    rw [← walked]
    rfl
  split at located
  · next long =>
      rw [if_pos long, read, lookup, located]
      rfl
  · next short =>
      rw [if_neg short]
      exact read_eq_ok_iff.mpr ⟨location, located, stands⟩

theorem find?_eq_some_cases {location : Location} {entry : Entry}
    (stands : files.find? location = some entry) :
    location = [] ∧ entry = .directory ∨ (location, entry) ∈ files.entries := by
  unfold find? at stands
  split at stands
  · next root => exact .inl ⟨root, (Option.some.inj stands).symm⟩
  · obtain ⟨⟨place, held⟩, first, rfl⟩ := Option.map_eq_some_iff.mp stands
    obtain rfl := standsAt_iff.mp (List.find?_some first)
    exact .inr (List.mem_of_find?_eq_some first)

instance (name : Text) : Decidable (IsEntryName name) :=
  decidable_of_iff (((name ≠ [] ∧ name ≠ ".") ∧ name ≠ parentPart) ∧
      isLonger longestName name = false ∧ Nameable name)
    ⟨fun ⟨⟨step, down⟩, short, nameable⟩ => ⟨step, down, short, nameable⟩,
      fun ⟨step, down, short, nameable⟩ => ⟨⟨step, down⟩, short, nameable⟩⟩

/-- Soundness as it can be checked, entry by entry. -/
theorem isSound_of_entries
    (named : ∀ entry ∈ files.entries, ∀ part ∈ entry.1, IsEntryName part)
    (above : ∀ entry ∈ files.entries, files.find? entry.1.dropLast = some .directory) :
    files.IsSound := by
  constructor
  · intro location entry stands part member
    rcases find?_eq_some_cases stands with ⟨rfl, -⟩ | among
    · cases member
    · exact named _ among part member
  · intro location part entry stands
    rcases find?_eq_some_cases stands with ⟨root, -⟩ | among
    · exact absurd root (by simp)
    · simpa using above _ among

/-- All files hold text in UTF-8. -/
def HoldsUtf8 (files : FileSystem) : Prop :=
  ∀ {location bytes}, files.find? location = some (.file bytes) →
    ∃ text, Utf8.decode bytes = .ok text

theorem holdsUtf8_of_entries
    (encoded : ∀ entry ∈ files.entries, ∀ bytes, entry.2 = .file bytes →
      ∃ text, Utf8.decode bytes = .ok text) : files.HoldsUtf8 := by
  intro location bytes stands
  rcases find?_eq_some_cases stands with ⟨-, directory⟩ | among
  · cases directory
  · exact encoded _ among bytes rfl

end FileSystem

end Inlay
