import Inlay.Files.Basic

/-!
# Walks

One part of a path leads from a directory to the next place, whatever else there is
(`walk_cons_cases`). A walk stops at the first place that is no directory, or at a name that no
directory can hold (`walk_eq_error_iff`). So where it leads depends on the directories only
(`SharesDirectories.walk`).
-/

set_option autoImplicit false

namespace Inlay

/-- Where one more part leads from a directory. -/
def nextPlace (place : Location) (part : Text) : Location :=
  if part = [] ∨ part = "." then place
  else if part = parentPart then place.dropLast
  else place ++ [part]

namespace FileSystem

variable {files other : FileSystem} {place target : Location} {part : Text} {parts : List Text}

/-! ## Steps of a walk -/

/-- Why a walk that has come to a place does not go on to the next part. -/
inductive Stops (files : FileSystem) (place : Location) (part : Text) : AccessFault → Prop where
  | nothing : files.find? place = none → Stops files place part .notFound
  | file {bytes : Bytes} :
      files.find? place = some (.file bytes) → Stops files place part .notDirectory
  | name : files.find? place = some .directory → ¬ (part = [] ∨ part = ".") → part ≠ parentPart →
      isLonger longestName part = true → Stops files place part .nameTooLong

theorem walk_cons_of_stops {fault : AccessFault} (stops : Stops files place part fault)
    (parts : List Text) : files.walk place (part :: parts) = .error fault := by
  cases stops with
  | nothing none => simp only [walk, none]
  | file found => simp only [walk, found]
  | name found step down long => simp only [walk, found, if_neg step, if_neg down, if_pos long]

theorem walk_cons_cases (files : FileSystem) (place : Location) (part : Text) :
    (∃ fault, Stops files place part fault) ∨
      (files.find? place = some .directory ∧
        ∀ parts, files.walk place (part :: parts) = files.walk (nextPlace place part) parts) := by
  cases found : files.find? place with
  | none => exact .inl ⟨_, .nothing found⟩
  | some entry =>
      cases entry with
      | file bytes => exact .inl ⟨_, .file found⟩
      | directory =>
          by_cases stays : part = [] ∨ part = "."
          · exact .inr ⟨rfl, fun parts => by simp only [walk, found, nextPlace, if_pos stays]⟩
          · by_cases up : part = parentPart
            · refine .inr ⟨rfl, fun parts => ?_⟩
              simp only [walk, found, nextPlace, if_neg stays, if_pos up]
            · by_cases long : isLonger longestName part = true
              · exact .inl ⟨_, .name found stays up long⟩
              · refine .inr ⟨rfl, fun parts => ?_⟩
                simp only [walk, found, nextPlace, if_neg stays, if_neg up, if_neg long]

theorem walk_cons_eq_ok (walked : files.walk place (part :: parts) = .ok target) :
    files.find? place = some .directory ∧
      files.walk (nextPlace place part) parts = .ok target := by
  rcases walk_cons_cases files place part with ⟨fault, stops⟩ | ⟨directory, steps⟩
  · rw [walk_cons_of_stops stops] at walked
    cases walked
  · exact ⟨directory, (steps parts).symm.trans walked⟩

theorem walk_unique {target' : Location} (walked : files.walk place parts = .ok target)
    (walked' : other.walk place parts = .ok target') : target = target' := by
  induction parts generalizing place with
  | nil =>
      cases walked
      cases walked'
      rfl
  | cons part parts ih => exact ih (walk_cons_eq_ok walked).2 (walk_cons_eq_ok walked').2

/-! ## Walks part by part -/

theorem walk_append {front : List Text} (walked : files.walk place front = .ok target)
    (behind : List Text) : files.walk place (front ++ behind) = files.walk target behind := by
  induction front generalizing place with
  | nil =>
      cases walked
      rfl
  | cons part front ih =>
      rcases walk_cons_cases files place part with ⟨fault, stops⟩ | ⟨-, steps⟩
      · rw [walk_cons_of_stops stops] at walked
        cases walked
      · rw [steps] at walked
        rw [List.cons_append, steps, ih walked]

theorem walk_eq_error_iff {fault : AccessFault} :
    files.walk place parts = .error fault ↔
      ∃ front part behind last, parts = front ++ part :: behind ∧
        files.walk place front = .ok last ∧ Stops files last part fault := by
  constructor
  · intro failed
    induction parts generalizing place with
    | nil => cases failed
    | cons part parts ih =>
        rcases walk_cons_cases files place part with ⟨early, stops⟩ | ⟨-, steps⟩
        · rw [walk_cons_of_stops stops] at failed
          cases failed
          exact ⟨[], part, parts, place, rfl, rfl, stops⟩
        · rw [steps] at failed
          obtain ⟨front, last, behind, reached, rfl, walked, stops⟩ := ih failed
          exact ⟨part :: front, last, behind, reached, rfl, (steps front).trans walked, stops⟩
  · intro ⟨front, part, behind, last, split, walked, stops⟩
    rw [split, walk_append walked, walk_cons_of_stops stops]

theorem walk_append_eq_ok_iff {front behind : List Text} :
    files.walk place (front ++ behind) = .ok target ↔
      ∃ middle, files.walk place front = .ok middle ∧ files.walk middle behind = .ok target := by
  constructor
  · intro walked
    cases reached : files.walk place front with
    | error fault =>
        obtain ⟨before, part, others, last, rfl, walkedBefore, stops⟩ :=
          walk_eq_error_iff.mp reached
        rw [List.append_assoc, walk_append walkedBefore, List.cons_append,
          walk_cons_of_stops stops] at walked
        cases walked
    | ok middle => exact ⟨middle, rfl, (walk_append reached behind).symm.trans walked⟩
  · intro ⟨middle, reached, walked⟩
    rw [walk_append reached, walked]

/-! ## Walks among the same directories -/

theorem walk_cons_of_not_directory (apart : files.find? place ≠ some .directory) (part : Text)
    (parts : List Text) :
    ∃ fault, files.walk place (part :: parts) = .error fault ∧ fault ≠ .nameTooLong := by
  unfold walk
  cases found : files.find? place with
  | none => exact ⟨.notFound, rfl, by decide⟩
  | some entry =>
      cases entry with
      | directory => exact absurd found apart
      | file bytes => exact ⟨.notDirectory, rfl, by decide⟩

/-- The file systems differ in regular files only. -/
structure SharesDirectories (files other : FileSystem) : Prop where
  workingDirectory : other.workingDirectory = files.workingDirectory
  directories : ∀ location,
    other.find? location = some .directory ↔ files.find? location = some .directory

/-- The outcomes are the same, or both are faults that a question for a file takes as a no. -/
def EndAlike {α : Type} (outcome other : Except AccessFault α) : Prop :=
  other = outcome ∨ ∃ fault fault', outcome = .error fault ∧ other = .error fault' ∧
    fault ≠ .nameTooLong ∧ fault' ≠ .nameTooLong

theorem SharesDirectories.walk (shares : SharesDirectories files other) (location : Location)
    (parts : List Text) : EndAlike (files.walk location parts) (other.walk location parts) := by
  induction parts generalizing location with
  | nil => exact .inl rfl
  | cons part parts ih =>
      by_cases directory : files.find? location = some .directory
      · have same := (shares.directories location).mpr directory
        rw [FileSystem.walk, FileSystem.walk, directory, same]
        dsimp only
        split
        · exact ih location
        · split
          · exact ih location.dropLast
          · split
            · exact .inl rfl
            · exact ih (location ++ [part])
      · obtain ⟨fault, stopped, short⟩ := walk_cons_of_not_directory directory part parts
        obtain ⟨fault', stopped', short'⟩ := walk_cons_of_not_directory
          (fun same => directory ((shares.directories location).mp same)) part parts
        exact .inr ⟨fault, fault', stopped, stopped', short, short'⟩

end FileSystem

end Inlay
