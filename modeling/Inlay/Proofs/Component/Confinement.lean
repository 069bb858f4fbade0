import Inlay.Proofs.Component.Schedule

/-!
# What a run may change

A task writes the file of its own path and no other, and a task that ends without a change has
not written at all. So whatever the schedule is, only the files of tasks that have written have
changed (`Confined`), even where source files are read while other ones are inlined.
-/

set_option autoImplicit false

namespace Inlay.Component

variable {setting : Setting} {files left : FileSystem} {paths : List Path} {path : Path}
  {location : Location} {old : Bytes} {stage next : Stage} {changes later : Changes files}
  {batch : Batch}

def Stage.hasWritten : Stage → Bool
  | .filling _ => true
  | .ended .inlined => true
  | .ended (.failed _) => true
  | _ => false

/-! ## One task -/

/-- A step of a task whose file is at a location. -/
structure ChangesOwn (location : Location) (stage next : Stage) (changes later : Changes files) :
    Prop where
  others : ∀ place, place ≠ location → later.content place = changes.content place
  kept : stage.hasWritten = true → next.hasWritten = true
  own : next.hasWritten = true ∨ later = changes

theorem changesOwn_of_unwritten (waits : stage.hasWritten = false) :
    ChangesOwn location stage next changes changes where
  others := fun _ _ => rfl
  kept := by
    intro written
    rw [waits] at written
    cases written
  own := .inr rfl

theorem changesOwn_set (found : files.find? location = some (.file old)) (bytes : Bytes)
    (written : next.hasWritten = true) :
    ChangesOwn location stage next changes (changes.set found bytes) where
  others := fun _ apart => changes.content_set_of_ne apart found bytes
  kept := fun _ => written
  own := .inl written

theorem changesOwn_of_next? (located : files.locate path = .ok location)
    (found : files.find? location = some (.file old))
    (moved : Stage.next? setting path (changes.apply, stage) = some (left, next)) :
    ∃ later : Changes files, left = later.apply ∧
      ChangesOwn location stage next changes later := by
  cases stage with
  | waiting => cases moved
  | ended status => cases moved
  | asking inquiry =>
      simp only [Stage.next?] at moved
      split at moved
      · cases moved
        exact ⟨changes, rfl, changesOwn_of_unwritten rfl⟩
      · cases moved
        exact ⟨changes, rfl, changesOwn_of_unwritten rfl⟩
  | opening text =>
      simp only [Stage.next?, changes.write_apply located found] at moved
      cases moved
      exact ⟨changes.set found [], rfl, changesOwn_set found [] rfl⟩
  | filling text =>
      simp only [Stage.next?] at moved
      split at moved
      · cases moved
        exact ⟨changes, rfl, fun _ _ => rfl, fun _ => rfl, .inl rfl⟩
      · next bytes encoded =>
          simp only [changes.write_apply located found] at moved
          cases moved
          exact ⟨changes.set found bytes, rfl, changesOwn_set found bytes rfl⟩

/-! ## All tasks -/

/-- Each file that has changed is that of a task that has written. -/
structure Confined (files : FileSystem) (paths : List Path) (batch : Batch)
    (changes : Changes files) : Prop where
  files_eq : batch.files = changes.apply
  paths_eq : batch.tasks.map Task.path = paths
  written : ∀ {location : Location} {bytes : Bytes}, changes.content location = some bytes →
    ∃ task ∈ batch.tasks, files.locate task.path = .ok location ∧ task.stage.hasWritten = true

theorem confined_start (files : FileSystem) (paths : List Path) :
    Confined files paths (.start files paths) (.none files) where
  files_eq := Changes.apply_none.symm
  paths_eq := by simp [Batch.start, Task.ofPath, Function.comp_def]
  written := nofun

theorem Confined.replace {before behind : List Task}
    (confined : Confined files paths ⟨left, before ++ ⟨path, stage⟩ :: behind⟩ changes)
    (located : files.locate path = .ok location)
    (changed : ChangesOwn location stage next changes later) :
    Confined files paths ⟨later.apply, before ++ ⟨path, next⟩ :: behind⟩ later where
  files_eq := rfl
  paths_eq := by simpa using confined.paths_eq
  written := by
    intro place bytes content
    have cases_of_place : changes.content place = some bytes ∨
        (place = location ∧ next.hasWritten = true) := by
      by_cases here : place = location
      · rcases changed.own with written | same
        · exact .inr ⟨here, written⟩
        · exact .inl (same ▸ content)
      · exact .inl ((changed.others place here).symm.trans content)
    rcases cases_of_place with earlier | ⟨rfl, written⟩
    · obtain ⟨task, member, leads, written⟩ := confined.written earlier
      rcases List.mem_cons.mp (List.perm_middle.mem_iff.mp member) with rfl | rest
      · exact ⟨⟨path, next⟩, List.mem_append_right _ (.head _), leads, changed.kept written⟩
      · exact ⟨task, List.perm_middle.mem_iff.mpr (.tail _ rest), leads, written⟩
    · exact ⟨⟨path, next⟩, List.mem_append_right _ (.head _), located, written⟩

theorem Confined.step {after : Batch} (confined : Confined files paths batch changes)
    (sources : ∀ path ∈ paths, files.isFile path = true) (step : Step setting batch after) :
    ∃ later : Changes files, Confined files paths after later := by
  cases step with
  | @begin current before behind path slot =>
      obtain rfl : current = changes.apply := confined.files_eq
      have among : path ∈ paths := by simp [← confined.paths_eq]
      obtain ⟨location, old, located, found⟩ := FileSystem.isFile_iff.mp (sources path among)
      exact ⟨changes, confined.replace located (changesOwn_of_unwritten rfl)⟩
  | @proceed current left before behind path stage next moved =>
      obtain rfl : current = changes.apply := confined.files_eq
      have among : path ∈ paths := by simp [← confined.paths_eq]
      obtain ⟨location, old, located, found⟩ := FileSystem.isFile_iff.mp (sources path among)
      obtain ⟨later, rfl, changed⟩ := changesOwn_of_next? located found moved
      exact ⟨later, confined.replace located changed⟩

theorem confined_of_schedule (sources : ∀ path ∈ paths, files.isFile path = true)
    (schedule : Schedule setting (.start files paths) batch) :
    ∃ changes : Changes files, Confined files paths batch changes := by
  induction schedule with
  | refl => exact ⟨_, confined_start files paths⟩
  | tail _ step ih =>
      obtain ⟨changes, confined⟩ := ih
      exact confined.step sources step

theorem map_path_ended (left : FileSystem) (results : List FileResult) :
    (Batch.ended left results).tasks.map Task.path = results.map FileResult.path := by
  rw [Batch.ended, List.map_map]
  rfl

/-! ## Runs over a project -/

theorem inlineProject_of_candidates {root : Path}
    (found : setting.candidates files root = .ok paths)
    (counted : 0 ≤ setting.options.maxConcurrency) :
    (inlineProject setting files root).files = (transformAll setting files paths).1 ∧
      (inlineProject setting files root).result = .ok (transformAll setting files paths).2.2 := by
  unfold inlineProject
  rw [found]
  dsimp only
  rw [if_neg (by omega)]
  exact ⟨rfl, rfl⟩

/-- A run that has results has followed a schedule of the candidate files. -/
theorem schedule_of_inlineProject {root : Path} {results : List FileResult}
    (done : (inlineProject setting files root).result = .ok results) :
    ∃ paths, setting.candidates files root = .ok paths ∧
      Schedule setting (.start files paths)
        (.ended (inlineProject setting files root).files results) := by
  cases found : setting.candidates files root with
  | error fault =>
      rw [inlineProject, found] at done
      cases done
  | ok paths =>
      by_cases negative : setting.options.maxConcurrency < 0
      · rw [inlineProject, found] at done
        dsimp only at done
        rw [if_pos negative] at done
        cases done
      · have counted : 0 ≤ setting.options.maxConcurrency := by omega
        obtain ⟨left, all⟩ := inlineProject_of_candidates found counted
        rw [all] at done
        cases done
        rw [left]
        exact ⟨paths, rfl, transformAll_is_schedule counted files paths⟩

end Inlay.Component
