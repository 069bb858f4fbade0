import Inlay.Proofs.Component.Confinement
import Inlay.Proofs.Discovery.Order
import Inlay.Proofs.Component.OwnReferences
import Mathlib.Data.List.Nodup
import Mathlib.Data.List.Pairwise

/-!
# What a run reports and what it leaves alone

A run has one result for each candidate file, and its summary counts these results. Whatever was
scheduled first, it leaves every file alone that no candidate path leads to, and every candidate
file that it reports as unchanged.
-/

set_option autoImplicit false

namespace Inlay

def FileStatus.isFailure : FileStatus → Bool
  | .failed _ => true
  | _ => false

namespace RunSummary

theorem total_eq (summary : RunSummary) :
    summary.total = summary.inlined + summary.unchanged + summary.failures.length := by
  obtain ⟨project, results⟩ := summary
  unfold total inlined unchanged failures
  induction results with
  | nil => rfl
  | cons result results ih =>
      obtain ⟨path, status⟩ := result
      cases status with
      | inlined => simp [ih]; omega
      | unchanged => simp [ih]; omega
      | failed message => simp [ih]; omega

theorem map_failures (summary : RunSummary) :
    summary.failures.map (fun failure => ⟨failure.1, .failed failure.2⟩) =
      summary.results.filter fun result => result.status.isFailure := by
  obtain ⟨project, results⟩ := summary
  unfold failures
  induction results with
  | nil => rfl
  | cons result results ih =>
      obtain ⟨path, status⟩ := result
      cases status with
      | inlined => simpa [FileStatus.isFailure] using ih
      | unchanged => simpa [FileStatus.isFailure] using ih
      | failed message => simpa [FileStatus.isFailure] using ih

theorem status_eq_completed_iff (summary : RunSummary) :
    summary.status = "completed" ↔ summary.failures = [] := by
  unfold status
  cases summary.failures with
  | nil => simp
  | cons failure failures => simp

end RunSummary

namespace Component

variable {setting : Setting} {files left : FileSystem} {paths : List Path} {path : Path}
  {results : List FileResult} {summary : RunSummary} {changes : Changes files}

/-- What the summary of a run over some paths says, and how its files before it and behind it
differ: where something stands does not change, and only files that the paths lead to do. -/
structure IsAccount (files left : FileSystem) (paths : List Path) (summary : RunSummary) :
    Prop where
  listed : summary.results.map FileResult.path = paths
  once : paths.Nodup
  total : summary.total = summary.inlined + summary.unchanged + summary.failures.length
  failures : summary.failures.map (fun failure => ⟨failure.1, .failed failure.2⟩) =
    summary.results.filter fun result => result.status.isFailure
  completed : summary.status = "completed" ↔ summary.failures = []
  places : left.entries.map Prod.fst = files.entries.map Prod.fst
  kinds : ∀ location, left.find? location = files.find? location ∨
    ∃ old new, files.find? location = some (.file old) ∧ left.find? location = some (.file new)
  otherPlaces : ∀ location, (∀ path ∈ paths, files.locate path ≠ .ok location) →
    left.find? location = files.find? location
  otherPaths : ∀ path, (∀ candidate ∈ paths, ¬ files.LeadTogether path candidate) →
    left.read path = files.read path
  unchanged : (paths.Pairwise fun path other => ¬ files.LeadTogether path other) →
    ∀ path, ⟨path, .unchanged⟩ ∈ summary.results → left.read path = files.read path

theorem written_of_confined {location : Location} {bytes : Bytes}
    (confined : Confined files paths (.ended left results) changes)
    (changed : changes.content location = some bytes) :
    ∃ result ∈ results, files.locate result.path = .ok location ∧
      result.status ≠ .unchanged := by
  obtain ⟨task, member, leads, written⟩ := confined.written changed
  obtain ⟨result, among, rfl⟩ := List.mem_map.mp member
  refine ⟨result, among, leads, ?_⟩
  intro kept
  rw [Task.ofResult, kept] at written
  cases written

theorem under?_eq_none_of_confined
    (confined : Confined files paths (.ended left results) changes)
    (apart : ∀ result ∈ results, result.status ≠ .unchanged →
      ¬ files.LeadTogether path result.path) : changes.under? path = none := by
  refine changes.under?_eq_none fun location bytes content located => ?_
  obtain ⟨result, among, leads, written⟩ := written_of_confined confined content
  exact apart result among written ⟨location, located, leads⟩

theorem isAccount_of_confined (once : paths.Nodup) (project : Path)
    (confined : Confined files paths (.ended left results) changes) :
    IsAccount files left paths ⟨project, results⟩ := by
  have listed : results.map FileResult.path = paths := by
    rw [← confined.paths_eq, map_path_ended]
  have among : ∀ result ∈ results, result.path ∈ paths := by
    intro result member
    rw [← listed]
    exact List.mem_map_of_mem member
  obtain rfl : left = changes.apply := confined.files_eq
  constructor
  case listed => exact listed
  case once => exact once
  case total => exact RunSummary.total_eq _
  case failures => exact RunSummary.map_failures _
  case completed => exact RunSummary.status_eq_completed_iff _
  case places => simp [Changes.apply, Function.comp_def]
  case kinds => exact changes.find?_apply_cases
  case otherPlaces =>
    intro location apart
    rw [changes.find?_apply]
    cases content : changes.content location with
    | none => rfl
    | some bytes =>
        obtain ⟨result, member, leads, -⟩ := written_of_confined confined content
        exact absurd leads (apart _ (among result member))
  case otherPaths =>
    intro path apart
    refine changes.read_apply (under?_eq_none_of_confined confined ?_)
    intro result member _
    exact apart _ (among result member)
  case unchanged =>
    intro distinct path kept
    refine changes.read_apply (under?_eq_none_of_confined confined ?_)
    intro result member written
    have differ : path ≠ result.path := by
      intro same
      rw [← listed] at once
      have equal := List.inj_on_of_nodup_map once kept member same
      exact written (equal ▸ rfl)
    have symmetric : Std.Symm fun path other => ¬ files.LeadTogether path other :=
      ⟨fun _ _ apart together => apart together.symm⟩
    exact distinct.forall (among _ kept) (among result member) differ

theorem isAccount_of_schedule {root project : Path}
    (found : setting.candidates files root = .ok paths)
    (schedule : Schedule setting (.start files paths) (.ended left results)) :
    IsAccount files left paths ⟨project, results⟩ := by
  obtain ⟨-, once, sources⟩ := Discovery.candidates_spec found
  obtain ⟨changes, confined⟩ := confined_of_schedule sources schedule
  exact isAccount_of_confined once project confined

theorem inlineProject_of_runProject {project : Text}
    (done : (runProject setting files project).result = .ok summary) :
    ∃ results, (inlineProject setting files (.ofText project)).result = .ok results ∧
      summary = ⟨.ofText project, results⟩ ∧
      (runProject setting files project).files =
        (inlineProject setting files (.ofText project)).files := by
  cases looked : files.look (.ofText project) with
  | error fault =>
      simp only [runProject, looked] at done
      cases done
  | ok entry =>
      rcases entry with _ | _ | content
      · simp only [runProject, looked] at done
        cases done
      · cases inlined : (inlineProject setting files (.ofText project)).result with
        | error fault =>
            simp only [runProject, looked, inlined] at done
            cases done
        | ok results =>
            simp only [runProject, looked, inlined] at done ⊢
            cases done
            exact ⟨results, rfl, rfl, trivial⟩
      · simp only [runProject, looked] at done
        cases done

/-- The summary of a run over a project is an account of its candidate files, and so is that of
any other schedule of these files. -/
theorem run_is_accounted (setting : Setting) (files : FileSystem) (project : Text) :
    (∀ summary, (runProject setting files project).result = .ok summary →
      ∃ paths, setting.candidates files (.ofText project) = .ok paths ∧
        IsAccount files (runProject setting files project).files paths summary) ∧
    (∀ paths left results, setting.candidates files (.ofText project) = .ok paths →
      Schedule setting (.start files paths) (.ended left results) →
      IsAccount files left paths ⟨.ofText project, results⟩) := by
  constructor
  · intro summary done
    obtain ⟨results, inlined, rfl, sameFiles⟩ := inlineProject_of_runProject done
    obtain ⟨paths, found, schedule⟩ := schedule_of_inlineProject inlined
    rw [sameFiles]
    exact ⟨paths, found, isAccount_of_schedule found schedule⟩
  · intro paths left results found schedule
    exact isAccount_of_schedule found schedule

/-- A component in a project directory, beside a directory through which it can be reached too. -/
def detourProject : FileSystem where
  entries :=
    [(["p"], .directory), (["p", "s"], .directory),
     (["p", "a.ts"], .file (Utf8.encode "templateUrl: 'a.html'")),
     (["p", "a.html"], .file (Utf8.encode "x")),
     (["p", "b.ts"], .file (Utf8.encode "templateUrl: 'b.html'"))]
  workingDirectory := []

/-- Files are included through the other directory, and the component itself is excluded. -/
def detourSetting : Setting :=
  ⟨{ includes := ["s/../*.ts"], excludes := ["a.ts"] }, [], .common .ok⟩

def detourSummary : RunSummary where
  project := .ofText "p"
  results :=
    [⟨.ofText "p/s/../a.ts", .inlined⟩,
     ⟨.ofText "p/s/../b.ts", .failed "Resource not found: p/b.html"⟩]

theorem result_runProject_detour :
    (runProject detourSetting detourProject "p").result = .ok detourSummary := by
  decide +kernel

theorem run_is_accounted_for_detour :
    (runProject detourSetting detourProject "p").result = .ok detourSummary ∧
      ∃ paths, detourSetting.candidates detourProject (.ofText "p") = .ok paths ∧
        IsAccount detourProject (runProject detourSetting detourProject "p").files paths
          detourSummary :=
  ⟨result_runProject_detour,
    (run_is_accounted detourSetting detourProject "p").1 _ result_runProject_detour⟩

/-- An excluded file whose own path is no candidate may be changed nevertheless. -/
theorem excluded_file_may_change :
    ¬ ∀ (setting : Setting) (files : FileSystem) (project : Text) (summary : RunSummary)
      (paths : List Path), (runProject setting files project).result = .ok summary →
      setting.candidates files (.ofText project) = .ok paths →
      ∀ path ∉ paths,
        Discovery.isExcluded setting.options.excludes
          (Discovery.relativeText (.ofText project) path) = true →
        (runProject setting files project).files.read path = files.read path := by
  intro keeps
  have found : detourSetting.candidates detourProject (.ofText "p") =
      .ok [.ofText "p/s/../a.ts", .ofText "p/s/../b.ts"] := by
    decide +kernel
  have same := keeps detourSetting detourProject "p" _ _ result_runProject_detour found
    (.ofText "p/a.ts") (by decide +kernel) (by decide +kernel)
  revert same
  decide +kernel

end Component

end Inlay
