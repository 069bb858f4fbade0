import Inlay.Proofs.Files.Answers
import Mathlib.Data.List.Basic

/-!
# Directory trees

A directory tree is a sound file system in which nothing stands twice. Every path to a file in it
leads through directories (`directory_above_file`), and these hold the parts that follow as names
(`exists_listed_of_walk`).
-/

set_option autoImplicit false

namespace Inlay

/-- The path that leads on by some parts. -/
def Path.descend (path : Path) (parts : List Text) : Path := ⟨path.anchor, path.parts ++ parts⟩

@[simp] theorem Path.descend_nil (path : Path) : path.descend [] = path := by simp [Path.descend]

@[simp] theorem Path.descend_descend (path : Path) (front behind : List Text) :
    (path.descend front).descend behind = path.descend (front ++ behind) := by
  simp [Path.descend]

theorem Path.descend_child (path : Path) (part : Text) (parts : List Text) :
    (path.child part).descend parts = path.descend (part :: parts) := by
  simp [Path.descend, Path.child]

theorem Path.descend_injective (path : Path) {parts others : List Text}
    (same : path.descend parts = path.descend others) : parts = others :=
  List.append_cancel_left (Path.mk.inj same).2

namespace FileSystem

variable {files : FileSystem} {path : Path} {place target : Location} {front behind : List Text}

/-! ## The spellings of the directories above -/

theorem prefix_joinWith_append (separator : Text) (front behind : List Text) :
    Text.joinWith separator front <+: Text.joinWith separator (front ++ behind) := by
  induction front with
  | nil => exact List.nil_prefix
  | cons part front ih =>
      cases front with
      | nil =>
          cases behind with
          | nil => exact List.prefix_refl _
          | cons next behind =>
              exact ⟨separator ++ Text.joinWith separator (next :: behind), by simp [Text.joinWith]⟩
      | cons next front => exact (List.prefix_append_right_inj _).mpr ih

theorem isLonger_of_prefix {limit : Nat} {text other : Text} (leads : text <+: other)
    (short : isLonger limit other = false) : isLonger limit text = false := by
  obtain ⟨rest, rfl⟩ := leads
  simp only [isLonger, Utf8.encode_append, List.length_append, decide_eq_false_iff_not,
    Nat.not_lt] at short ⊢
  omega

/-- The directories above a path that can be asked for can be asked for. -/
theorem IsAskable.of_descend (askable : IsAskable (path.descend behind)) : IsAskable path := by
  by_cases empty : path.anchor = .relative ∧ path.parts = []
  · have written : path.text = [.char '.'] := if_pos empty
    unfold IsAskable
    rw [written]
    decide
  · have further : ¬ (path.anchor = .relative ∧ path.parts ++ behind = []) := fun both =>
      empty ⟨both.1, (List.append_eq_nil_iff.mp both.2).1⟩
    have leads : path.text <+: (path.descend behind).text := by
      unfold Path.text
      rw [if_neg empty, Path.descend, if_neg further]
      exact (List.prefix_append_right_inj _).mpr (prefix_joinWith_append _ _ _)
    have nameable := refusal?_eq_none_iff.mp askable.1
    exact ⟨refusal?_eq_none_iff.mpr fun c member => nameable c (leads.subset member),
      isLonger_of_prefix leads askable.2⟩

/-! ## Walks down a tree -/

theorem nextPlace_of_isSettled {part : Text} (step : IsStep part) (down : part ≠ parentPart) :
    nextPlace place part = place ++ [part] := by
  rw [nextPlace_of_step step, if_neg down]

theorem walk_of_isSettled (settled : IsSettled front)
    (walked : files.walk place front = .ok target) : target = place ++ front := by
  induction front generalizing place with
  | nil =>
      cases walked
      exact (List.append_nil _).symm
  | cons part front ih =>
      obtain ⟨⟨step, down⟩, others⟩ := List.forall_mem_cons.mp settled
      have later := (walk_cons_eq_ok walked).2
      rw [nextPlace_of_isSettled step down] at later
      rw [ih others later, List.append_assoc]
      rfl

/-- A walk to an entry starts at one. -/
theorem exists_entry_of_walk {entry : Entry} (walked : files.walk place front = .ok target)
    (stands : files.find? target = some entry) : ∃ first, files.find? place = some first := by
  cases front with
  | nil =>
      cases walked
      exact ⟨entry, stands⟩
  | cons part front => exact ⟨.directory, (walk_cons_eq_ok walked).1⟩

theorem lookup_of_isFile (file : files.isFile path = true) :
    ∃ bytes, files.lookup path = .ok (.file bytes) := by
  obtain ⟨location, bytes, located, stands⟩ := isFile_iff.mp file
  exact ⟨bytes, lookup_eq_ok_iff.mpr ⟨location, located, stands⟩⟩

theorem isFile_eq_false_of_lookup (looked : files.lookup path = .ok .directory) :
    files.isFile path = false := by
  rw [isFile, looked]

theorem look_eq_some_iff {entry : Entry} :
    files.look path = .ok (some entry) ↔ files.lookup path = .ok entry := by
  unfold look
  split
  · next looked => simp [looked]
  · next looked => simp [looked]
  · next looked => simp [looked]

/-- Above a file a path leads to a directory, from where the other parts lead on to the file. -/
theorem directory_above_file (file : files.isFile (path.descend behind) = true)
    (inside : behind ≠ []) :
    ∃ location target bytes, files.locate path = .ok location ∧
      files.find? location = some .directory ∧ files.walk location behind = .ok target ∧
      files.find? target = some (.file bytes) := by
  obtain ⟨target, bytes, located, stands⟩ := isFile_iff.mp file
  have askable := isAskable_of_locate located
  rw [locate_of_askable askable] at located
  obtain ⟨location, reached, walked⟩ := walk_append_eq_ok_iff.mp located
  obtain ⟨part, others, rfl⟩ := List.exists_cons_of_ne_nil inside
  exact ⟨location, target, bytes, (locate_of_askable askable.of_descend).trans reached,
    (walk_cons_eq_ok walked).1, walked, stands⟩

theorem lookup_above_file (file : files.isFile (path.descend behind) = true)
    (inside : behind ≠ []) : files.lookup path = .ok .directory := by
  obtain ⟨location, -, -, located, directory, -, -⟩ := directory_above_file file inside
  exact lookup_eq_ok_iff.mpr ⟨location, located, directory⟩

/-! ## Trees -/

/-- A sound file system in which nothing stands twice. -/
structure IsTree (files : FileSystem) : Prop extends IsSound files where
  single : ∀ {location entry}, (location, entry) ∈ files.entries →
    files.find? location = some entry

/-- Trees as they can be checked, entry by entry. -/
theorem isTree_of_entries
    (named : ∀ entry ∈ files.entries, ∀ part ∈ entry.1, IsEntryName part)
    (above : ∀ entry ∈ files.entries, files.find? entry.1.dropLast = some .directory)
    (single : ∀ entry ∈ files.entries, files.find? entry.1 = some entry.2) : files.IsTree :=
  ⟨isSound_of_entries named above, fun member => single _ member⟩

theorem IsTree.isSettled (tree : files.IsTree) {location : Location} {entry : Entry}
    (member : (location, entry) ∈ files.entries) : IsSettled location := by
  intro part among
  have name := tree.named (tree.single member) part among
  exact ⟨name.step, name.down⟩

theorem mem_listing_iff {name : Text} {entry : Entry} :
    (name, entry) ∈ files.listing place ↔ (place ++ [name], entry) ∈ files.entries := by
  simp only [listing, List.mem_filterMap, Prod.exists]
  constructor
  · intro listed
    obtain ⟨location, own, member, kept⟩ := listed
    split at kept
    · next inside =>
        obtain ⟨last, named, same⟩ := Option.map_eq_some_iff.mp kept
        cases same
        have whole : place ++ [name] = location := by
          rw [← sameLocation_iff.mp inside.2]
          exact List.dropLast_append_getLast? name (Option.mem_def.mpr named)
        exact whole ▸ member
    · cases kept
  · intro member
    refine ⟨_, entry, member, ?_⟩
    simp [sameLocation_iff.mpr]

theorem IsTree.isSettled_of_mem_listing (tree : files.IsTree) {name : Text} {entry : Entry}
    (member : (name, entry) ∈ files.listing place) : IsStep name ∧ name ≠ parentPart :=
  tree.isSettled (mem_listing_iff.mp member) name (by simp)

/-- A directory lists the names by which a walk goes on from it to an entry, and those of
directories if it goes on from there. -/
theorem exists_listed_of_walk {part : Text} {entry : Entry} (step : IsStep part)
    (down : part ≠ parentPart) (walked : files.walk place (part :: behind) = .ok target)
    (stands : files.find? target = some entry) :
    ∃ next, (part, next) ∈ files.listing place ∧ (behind ≠ [] → next = .directory) := by
  have later := (walk_cons_eq_ok walked).2
  rw [nextPlace_of_isSettled step down] at later
  obtain ⟨next, found⟩ := exists_entry_of_walk later stands
  refine ⟨next, mem_listing_iff.mpr ?_, fun further => ?_⟩
  · rcases find?_eq_some_cases found with ⟨root, -⟩ | member
    · exact absurd root (by simp)
    · exact member
  · obtain ⟨first, others, rfl⟩ := List.exists_cons_of_ne_nil further
    rw [(walk_cons_eq_ok later).1] at found
    exact (Option.some.inj found).symm

end FileSystem

end Inlay
