import Mathlib.Algebra.GroupWithZero.Nat
import Inlay.Proofs.Component.Schedule

/-!
# Independent source files

Where no source file is read while another one is inlined, the tasks do not meet: whatever
the others have written, each of them gets the answers that it would get on the files as they
were. So every schedule comes to an end, and all of them end alike
(`schedule_ends_as_transformAll`).
-/

set_option autoImplicit false

namespace Inlay

namespace Inquiry

variable {α : Type} {files : FileSystem} {inquiry : Inquiry α}

/-- The paths of the files that an inquiry reads, in order. -/
def reads (files : FileSystem) : Inquiry α → List Path
  | .done _ => []
  | .fail _ => []
  | .note _ rest => rest.reads files
  | .probe path rest => (rest (files.probeFile path)).reads files
  | .read path rest => path :: (rest (files.read path)).reads files

def steps (files : FileSystem) : Inquiry α → Nat
  | .done _ => 0
  | .fail _ => 0
  | .note _ rest => rest.steps files + 1
  | .probe path rest => (rest (files.probeFile path)).steps files + 1
  | .read path rest => (rest (files.read path)).steps files + 1

theorem result_of_advance {outcome : Except Fault α}
    (advanced : inquiry.advance files = .inl outcome) : inquiry.result files = outcome := by
  cases inquiry <;> cases advanced <;> rfl

theorem later_of_advance {later : Inquiry α} (advanced : inquiry.advance files = .inr later) :
    later.result files = inquiry.result files ∧
      later.reads files ⊆ inquiry.reads files ∧
      inquiry.steps files = later.steps files + 1 := by
  cases inquiry with
  | done value => cases advanced
  | fail fault => cases advanced
  | note entry rest =>
      cases advanced
      exact ⟨rfl, List.Subset.refl _, rfl⟩
  | probe path rest =>
      cases advanced
      exact ⟨rfl, List.Subset.refl _, rfl⟩
  | read path rest =>
      cases advanced
      exact ⟨rfl, List.subset_cons_self _ _, rfl⟩

/-- Changes to files that an inquiry does not read make no difference to it. -/
theorem advance_apply (changes : Changes files)
    (untouched : ∀ asked ∈ inquiry.reads files, changes.under? asked = none) :
    inquiry.advance changes.apply = inquiry.advance files := by
  cases inquiry with
  | done value => rfl
  | fail fault => rfl
  | note entry rest => rfl
  | probe path rest => rw [advance, advance, changes.probeFile_apply]
  | read path rest => rw [advance, advance, changes.read_apply (untouched path (.head _))]

end Inquiry

namespace Component

variable {setting : Setting} {files : FileSystem} {paths : List Path} {path : Path}

/-- The source files are different files, and none is read while another one is inlined. -/
structure AreIndependent (setting : Setting) (files : FileSystem) (paths : List Path) :
    Prop where
  distinct : paths.Pairwise fun path other => ¬ files.LeadTogether path other
  unread : ∀ path ∈ paths, ∀ other ∈ paths, path ≠ other →
    ∀ asked ∈ (inlineFile setting path).reads files, ¬ files.LeadTogether asked other

/-! ## One task -/

/-- How a task ends on the files as they were, and what its file holds then if it was written. -/
def conclusion (setting : Setting) (files : FileSystem) (path : Path) :
    FileStatus × Option Bytes :=
  match (inlineFile setting path).result files with
  | .error fault => (.failed fault.message, none)
  | .ok none => (.unchanged, none)
  | .ok (some text) =>
      match setting.charset.encode text with
      | .error fault => (.failed fault.message, some [])
      | .ok bytes => (.inlined, some bytes)

/-- A stage of a task that has had its answers from the files as they were, and what the task
has written by then. -/
inductive Tracks (setting : Setting) (files : FileSystem) (path : Path) :
    Stage → Option Bytes → Prop where
  | waiting : Tracks setting files path .waiting none
  | asking {inquiry : Inquiry (Option Text)}
      (same : inquiry.result files = (inlineFile setting path).result files)
      (fewer : inquiry.reads files ⊆ (inlineFile setting path).reads files) :
      Tracks setting files path (.asking inquiry) none
  | opening {text : Text}
      (inlined : (inlineFile setting path).result files = .ok (some text)) :
      Tracks setting files path (.opening text) none
  | filling {text : Text}
      (inlined : (inlineFile setting path).result files = .ok (some text)) :
      Tracks setting files path (.filling text) (some [])
  | ended {status : FileStatus} {written : Option Bytes}
      (concluded : conclusion setting files path = (status, written)) :
      Tracks setting files path (.ended status) written

def Stage.remaining (setting : Setting) (files : FileSystem) (path : Path) : Stage → Nat
  | .waiting => (inlineFile setting path).steps files + 4
  | .asking inquiry => inquiry.steps files + 3
  | .opening _ => 2
  | .filling _ => 1
  | .ended _ => 0

theorem Stage.remaining_conclude_le (outcome : Except Fault (Option Text)) :
    (conclude outcome).remaining setting files path ≤ 2 := by
  rcases outcome with fault | _ | text
  · exact Nat.zero_le _
  · exact Nat.zero_le _
  · exact Nat.le_refl _

theorem tracks_conclude :
    Tracks setting files path (.conclude ((inlineFile setting path).result files)) none := by
  cases inlining : (inlineFile setting path).result files with
  | error fault => exact .ended (by simp only [conclusion, inlining])
  | ok outcome =>
      cases outcome with
      | none => exact .ended (by simp only [conclusion, inlining])
      | some text => exact .opening inlining

/-- A step of a task from some changes to others: the task stays on its track, and the
contents of other files stay. -/
structure StaysOnTrack (setting : Setting) (path : Path) (stage next : Stage)
    (changes later : Changes files) : Prop where
  tracked : Tracks setting files path next (later.under? path)
  fewer : next.remaining setting files path < stage.remaining setting files path
  others : ∀ location, files.locate path ≠ .ok location →
    later.content location = changes.content location

variable {changes : Changes files} {left : FileSystem} {next : Stage}

theorem next_of_asking {inquiry : Inquiry (Option Text)}
    (same : inquiry.result files = (inlineFile setting path).result files)
    (fewer : inquiry.reads files ⊆ (inlineFile setting path).reads files)
    (unwritten : changes.under? path = none)
    (untouched : ∀ asked ∈ (inlineFile setting path).reads files, changes.under? asked = none)
    (moved : Stage.next? setting path (changes.apply, .asking inquiry) = some (left, next)) :
    left = changes.apply ∧
      StaysOnTrack setting path (.asking inquiry) next changes changes := by
  have answers := inquiry.advance_apply changes fun asked member =>
    untouched asked (fewer member)
  simp only [Stage.next?, answers] at moved
  cases advanced : inquiry.advance files with
  | inl outcome =>
      rw [advanced] at moved
      cases moved
      have concluded := (Inquiry.result_of_advance advanced).symm.trans same
      refine ⟨rfl, ?_, ?_, fun _ _ => rfl⟩
      · rw [unwritten, concluded]
        exact tracks_conclude
      · have few : Stage.remaining setting files path (.conclude outcome) ≤ 2 :=
          Stage.remaining_conclude_le outcome
        rw [Stage.remaining.eq_2]
        omega
  | inr later =>
      rw [advanced] at moved
      cases moved
      obtain ⟨result, reads, steps⟩ := Inquiry.later_of_advance advanced
      refine ⟨rfl, ?_, ?_, fun _ _ => rfl⟩
      · rw [unwritten]
        exact .asking (result.trans same) (List.Subset.trans reads fewer)
      · simp only [Stage.remaining]
        omega

theorem Revision.content_set (revision : Revision setting files path) (changes : Changes files)
    (bytes : Bytes) (place : Location) (apart : files.locate path ≠ .ok place) :
    (changes.set revision.found bytes).content place = changes.content place := by
  refine changes.content_set_of_ne ?_ _ _
  rintro rfl
  exact apart revision.located

theorem next_of_opening {text : Text}
    (inlined : (inlineFile setting path).result files = .ok (some text))
    (moved : Stage.next? setting path (changes.apply, .opening text) = some (left, next)) :
    ∃ later : Changes files, left = later.apply ∧
      StaysOnTrack setting path (.opening text) next changes later := by
  obtain ⟨revision, rfl⟩ := revision_of_inlineFile inlined
  simp only [Stage.next?, changes.write_apply revision.located revision.found] at moved
  cases moved
  refine ⟨changes.set revision.found [], rfl, ?_, Nat.lt_succ_self 1,
    revision.content_set changes []⟩
  rw [changes.under?_set revision.located]
  exact .filling inlined

theorem next_of_filling {text : Text}
    (inlined : (inlineFile setting path).result files = .ok (some text))
    (emptied : changes.under? path = some [])
    (moved : Stage.next? setting path (changes.apply, .filling text) = some (left, next)) :
    ∃ later : Changes files, left = later.apply ∧
      StaysOnTrack setting path (.filling text) next changes later := by
  obtain ⟨revision, rfl⟩ := revision_of_inlineFile inlined
  simp only [Stage.next?] at moved
  cases encoded : setting.charset.encode revision.text with
  | error fault =>
      rw [encoded] at moved
      cases moved
      refine ⟨changes, rfl, ?_, Nat.zero_lt_one, fun _ _ => rfl⟩
      rw [emptied]
      exact .ended (by simp only [conclusion, inlined, encoded])
  | ok bytes =>
      simp only [encoded, changes.write_apply revision.located revision.found] at moved
      cases moved
      refine ⟨changes.set revision.found bytes, rfl, ?_, Nat.zero_lt_one,
        revision.content_set changes bytes⟩
      rw [changes.under?_set revision.located]
      exact .ended (by simp only [conclusion, inlined, encoded])

/-- No step takes a task off its track while nothing that it reads was written. -/
theorem Tracks.goes_on {stage : Stage}
    (tracked : Tracks setting files path stage (changes.under? path))
    (untouched : changes.under? path = none →
      ∀ asked ∈ (inlineFile setting path).reads files, changes.under? asked = none)
    (moved : Stage.next? setting path (changes.apply, stage) = some (left, next)) :
    ∃ later : Changes files, left = later.apply ∧
      StaysOnTrack setting path stage next changes later := by
  -- Which stages are possible depends on whether the task has written its file.
  generalize held : changes.under? path = written at tracked
  cases tracked with
  | waiting => cases moved
  | asking same fewer =>
      exact ⟨changes, next_of_asking same fewer held (untouched held) moved⟩
  | opening inlined => exact next_of_opening inlined moved
  | filling inlined => exact next_of_filling inlined held moved
  | ended concluded => cases moved

/-! ## All tasks -/

def Batch.remaining (setting : Setting) (files : FileSystem) (batch : Batch) : Nat :=
  (batch.tasks.map fun task => task.stage.remaining setting files task.path).sum

/-- All tasks are on their tracks, and no file has changed but theirs. -/
structure Follows (setting : Setting) (files : FileSystem) (paths : List Path) (batch : Batch)
    (changes : Changes files) : Prop where
  files_eq : batch.files = changes.apply
  paths_eq : batch.tasks.map Task.path = paths
  tracked : ∀ task ∈ batch.tasks,
    Tracks setting files task.path task.stage (changes.under? task.path)
  owned : ∀ {location : Location} {bytes : Bytes}, changes.content location = some bytes →
    ∃ path ∈ paths, files.locate path = .ok location

theorem follows_start (setting : Setting) (files : FileSystem) (paths : List Path) :
    Follows setting files paths (.start files paths) (.none files) where
  files_eq := (Changes.apply_none).symm
  paths_eq := by simp [Batch.start, Task.ofPath, Function.comp_def]
  tracked := by
    intro task member
    obtain ⟨path, _, rfl⟩ := List.mem_map.mp member
    have unwritten : (Changes.none files).under? path = none := by
      unfold Changes.under?
      cases files.locate path <;> rfl
    change Tracks setting files path .waiting ((Changes.none files).under? path)
    rw [unwritten]
    exact .waiting
  owned := nofun

theorem untouched_of_owned
    (owned : ∀ {location : Location} {bytes : Bytes}, changes.content location = some bytes →
      ∃ path ∈ paths, files.locate path = .ok location)
    (unread : ∀ other ∈ paths, other ≠ path →
      ∀ asked ∈ (inlineFile setting path).reads files, ¬ files.LeadTogether asked other)
    (unwritten : changes.under? path = none) :
    ∀ asked ∈ (inlineFile setting path).reads files, changes.under? asked = none := by
  intro asked member
  refine changes.under?_eq_none fun location bytes content located => ?_
  -- A file with a new content is a source file: another one, or the one that is inlined.
  obtain ⟨other, listed, leads⟩ := owned content
  by_cases own : other = path
  · subst own
    rw [changes.under?_of_locate leads, content] at unwritten
    cases unwritten
  · exact unread other listed own asked member ⟨location, located, leads⟩

theorem Follows.untouched {batch : Batch} (follows : Follows setting files paths batch changes)
    (independent : AreIndependent setting files paths) (among : path ∈ paths)
    (unwritten : changes.under? path = none) :
    ∀ asked ∈ (inlineFile setting path).reads files, changes.under? asked = none :=
  untouched_of_owned follows.owned
    (fun other listed differ => independent.unread path among other listed differ.symm) unwritten

theorem not_leadTogether_of_mem {before behind : List Task} {task other : Task}
    (distinct : ((before ++ task :: behind).map Task.path).Pairwise
      fun path other => ¬ files.LeadTogether path other)
    (member : other ∈ before ++ behind) : ¬ files.LeadTogether task.path other.path := by
  rw [List.pairwise_map, List.pairwise_middle fun apart together => apart together.symm]
    at distinct
  exact (List.pairwise_cons.mp distinct).1 other member

theorem Follows.replace {before behind : List Task} {stage : Stage} {later : Changes files}
    (follows : Follows setting files paths ⟨left, before ++ ⟨path, stage⟩ :: behind⟩ changes)
    (independent : AreIndependent setting files paths)
    (stays : StaysOnTrack setting path stage next changes later) :
    Follows setting files paths ⟨later.apply, before ++ ⟨path, next⟩ :: behind⟩ later ∧
      Batch.remaining setting files ⟨later.apply, before ++ ⟨path, next⟩ :: behind⟩ <
        Batch.remaining setting files ⟨left, before ++ ⟨path, stage⟩ :: behind⟩ := by
  have paths_eq : (before ++ (⟨path, stage⟩ : Task) :: behind).map Task.path = paths :=
    follows.paths_eq
  have among : path ∈ paths := by simp [← paths_eq]
  refine ⟨⟨rfl, ?_, ?_, Changes.owned_of_others stays.others among follows.owned⟩, ?_⟩
  · simpa using paths_eq
  · intro task member
    rcases List.mem_cons.mp (List.perm_middle.mem_iff.mp member) with rfl | rest
    · exact stays.tracked
    · have distinct := independent.distinct
      rw [← paths_eq] at distinct
      rw [Changes.under?_eq_of_others stays.others (not_leadTogether_of_mem distinct rest)]
      exact follows.tracked task (List.perm_middle.mem_iff.mpr (List.mem_cons_of_mem _ rest))
  · have fewer := stays.fewer
    simp only [Batch.remaining, List.map_append, List.map_cons, List.sum_append, List.sum_cons]
    omega

theorem Follows.step {batch next : Batch} (follows : Follows setting files paths batch changes)
    (independent : AreIndependent setting files paths) (step : Step setting batch next) :
    ∃ later : Changes files, Follows setting files paths next later ∧
      next.remaining setting files < batch.remaining setting files := by
  cases step with
  | @begin current before behind path slot =>
      obtain rfl : current = changes.apply := follows.files_eq
      have tracked : Tracks setting files path .waiting (changes.under? path) :=
        follows.tracked ⟨path, .waiting⟩ (List.mem_append_right _ (.head _))
      generalize held : changes.under? path = written at tracked
      cases tracked
      have stays : StaysOnTrack setting path .waiting (.asking (inlineFile setting path))
          changes changes := by
        refine ⟨?_, Nat.lt_succ_self _, fun _ _ => rfl⟩
        rw [held]
        exact .asking rfl (List.Subset.refl _)
      exact ⟨changes, follows.replace independent stays⟩
  | @proceed current left before behind path stage next moved =>
      obtain rfl : current = changes.apply := follows.files_eq
      have among : path ∈ paths := by simp [← follows.paths_eq]
      have tracked : Tracks setting files path stage (changes.under? path) :=
        follows.tracked ⟨path, stage⟩ (List.mem_append_right _ (.head _))
      obtain ⟨later, rfl, stays⟩ :=
        tracked.goes_on (follows.untouched independent among) moved
      exact ⟨later, follows.replace independent stays⟩

theorem Follows.schedule {batch next : Batch}
    (follows : Follows setting files paths batch changes)
    (independent : AreIndependent setting files paths) (schedule : Schedule setting batch next) :
    ∃ later : Changes files, Follows setting files paths next later := by
  induction schedule with
  | refl => exact ⟨changes, follows⟩
  | tail _ step ih =>
      obtain ⟨later, follows⟩ := ih
      obtain ⟨last, follows, _⟩ := follows.step independent step
      exact ⟨last, follows⟩

/-- No schedule goes on forever, since each step leaves fewer steps. -/
theorem Follows.acc {batch : Batch} (follows : Follows setting files paths batch changes)
    (independent : AreIndependent setting files paths) :
    Acc (fun next batch => Step setting batch next) batch := by
  induction many : batch.remaining setting files using Nat.strongRecOn
    generalizing batch changes with
  | ind count ih =>
      refine ⟨_, fun next step => ?_⟩
      obtain ⟨later, goes_on, fewer⟩ := follows.step independent step
      exact ih _ (many ▸ fewer) goes_on rfl

/-! ## The end of a schedule -/

def Batch.IsOver (batch : Batch) : Prop :=
  ∀ task ∈ batch.tasks, ∃ status, task.stage = .ended status

theorem Stage.isSome_next? {stage : Stage} (running : stage.isRunning = true)
    (files : FileSystem) : (next? setting path (files, stage)).isSome = true := by
  cases stage with
  | waiting => cases running
  | ended status => cases running
  | asking inquiry =>
      simp only [next?]
      split <;> rfl
  | opening text =>
      simp only [next?]
      split <;> rfl
  | filling text =>
      simp only [next?]
      split
      · rfl
      · split <;> rfl

theorem isOver_of_stuck {batch : Batch} (counted : 0 ≤ setting.options.maxConcurrency)
    (stuck : ∀ next, ¬ Step setting batch next) : batch.IsOver := by
  obtain ⟨current, tasks⟩ := batch
  -- A running task needs no slot, and where none runs a waiting one gets its slot.
  have idle : ∀ task ∈ tasks, task.stage.isRunning = false := by
    intro task member
    by_contra running
    obtain ⟨before, behind, rfl⟩ := List.append_of_mem member
    rw [Bool.not_eq_false] at running
    obtain ⟨⟨left, next⟩, moved⟩ := Option.isSome_iff_exists.mp (Stage.isSome_next? running current)
    exact stuck _ (.proceed moved)
  rintro ⟨path, stage⟩ member
  cases stage with
  | ended status => exact ⟨status, rfl⟩
  | waiting =>
      obtain ⟨before, behind, rfl⟩ := List.append_of_mem member
      exact absurd (.begin (hasSlot_of_idle counted idle)) (stuck _)
  | asking inquiry => cases idle _ member
  | opening text => cases idle _ member
  | filling text => cases idle _ member

theorem isOver_ended (files : FileSystem) (results : List FileResult) :
    (Batch.ended files results).IsOver := by
  intro task member
  obtain ⟨result, _, rfl⟩ := List.mem_map.mp member
  exact ⟨result.status, rfl⟩

variable {batch : Batch}

theorem Follows.concluded (follows : Follows setting files paths batch changes)
    (finished : batch.IsOver) {task : Task} (member : task ∈ batch.tasks) :
    task = ⟨task.path, .ended (conclusion setting files task.path).1⟩ ∧
      changes.under? task.path = (conclusion setting files task.path).2 := by
  have tracked := follows.tracked task member
  obtain ⟨status, ended⟩ := finished task member
  rw [ended] at tracked
  generalize held : changes.under? task.path = written at tracked
  cases tracked with
  | ended concluded =>
      rw [concluded, ← ended]
      exact ⟨rfl, rfl⟩

theorem Follows.tasks_eq (follows : Follows setting files paths batch changes)
    (finished : batch.IsOver) :
    batch.tasks = paths.map fun path => ⟨path, .ended (conclusion setting files path).1⟩ := by
  rw [← follows.paths_eq, List.map_map]
  refine (List.map_id _).symm.trans (List.map_congr_left fun task member => ?_)
  exact (follows.concluded finished member).1

/-- A file holds what its task ends with, and other files are as they were. -/
theorem Follows.content_eq_some_iff (follows : Follows setting files paths batch changes)
    (finished : batch.IsOver) {location : Location} {bytes : Bytes} :
    changes.content location = some bytes ↔
      ∃ path ∈ paths, files.locate path = .ok location ∧
        (conclusion setting files path).2 = some bytes := by
  have written : ∀ path ∈ paths, files.locate path = .ok location →
      changes.content location = (conclusion setting files path).2 := by
    intro path among located
    rw [← follows.paths_eq] at among
    obtain ⟨task, member, rfl⟩ := List.mem_map.mp among
    rw [← changes.under?_of_locate located]
    exact (follows.concluded finished member).2
  constructor
  · intro changed
    obtain ⟨path, among, located⟩ := follows.owned changed
    exact ⟨path, among, located, (written path among located).symm.trans changed⟩
  · rintro ⟨path, among, located, concluded⟩
    exact (written path among located).trans concluded

theorem Follows.eq_of_isOver {other : Batch} {changes' : Changes files}
    (follows : Follows setting files paths batch changes)
    (follows' : Follows setting files paths other changes')
    (finished : batch.IsOver) (finished' : other.IsOver) : batch = other := by
  have content : changes.content = changes'.content := by
    funext location
    refine Option.ext fun bytes => ?_
    rw [follows.content_eq_some_iff finished, follows'.content_eq_some_iff finished']
  have applied : batch.files = other.files := by
    rw [follows.files_eq, follows'.files_eq, Changes.apply, Changes.apply, content]
  have tasks : batch.tasks = other.tasks :=
    (follows.tasks_eq finished).trans (follows'.tasks_eq finished').symm
  cases batch
  cases other
  rw [Batch.mk.injEq]
  exact ⟨applied, tasks⟩

/-- Whatever the schedule of independent source files is, it comes to an end, and then the
files and the results are those of transforming the files one after another. -/
theorem schedule_ends_as_transformAll (counted : 0 ≤ setting.options.maxConcurrency)
    (independent : AreIndependent setting files paths) :
    Acc (fun next batch => Step setting batch next) (.start files paths) ∧
      ∀ batch, Schedule setting (.start files paths) batch →
        (∀ next, ¬ Step setting batch next) →
        batch = .ended (transformAll setting files paths).1
          (transformAll setting files paths).2.2 := by
  have start := follows_start setting files paths
  refine ⟨start.acc independent, fun batch schedule stuck => ?_⟩
  obtain ⟨changes, follows⟩ := start.schedule independent schedule
  obtain ⟨_, inTurn⟩ :=
    start.schedule independent (transformAll_is_schedule counted files paths)
  exact follows.eq_of_isOver inTurn (isOver_of_stuck counted stuck) (isOver_ended _ _)

def pairedSetting : Setting := ⟨{ maxConcurrency := 2 }, [], .common .ok⟩

/-- A component with its template, one whose template is missing, and one without any. -/
def mixedProject : FileSystem where
  entries :=
    [(["a.ts"], .file (Utf8.encode "templateUrl: 'a.html'")),
     (["a.html"], .file (Utf8.encode "x")),
     (["b.ts"], .file (Utf8.encode "templateUrl: 'b.html'")),
     (["c.ts"], .file (Utf8.encode "y"))]
  workingDirectory := []

theorem schedules_of_mixedProject :
    (transformAll pairedSetting mixedProject [.ofText "a.ts", .ofText "b.ts", .ofText "c.ts"]).2.2 =
        [⟨.ofText "a.ts", .inlined⟩,
          ⟨.ofText "b.ts", .failed "Resource not found: b.html"⟩,
          ⟨.ofText "c.ts", .unchanged⟩] ∧
      Acc (fun next batch => Step pairedSetting batch next)
        (.start mixedProject [.ofText "a.ts", .ofText "b.ts", .ofText "c.ts"]) ∧
      ∀ batch, Schedule pairedSetting
          (.start mixedProject [.ofText "a.ts", .ofText "b.ts", .ofText "c.ts"]) batch →
        (∀ next, ¬ Step pairedSetting batch next) →
        batch = .ended
          (transformAll pairedSetting mixedProject
            [.ofText "a.ts", .ofText "b.ts", .ofText "c.ts"]).1
          (transformAll pairedSetting mixedProject
            [.ofText "a.ts", .ofText "b.ts", .ofText "c.ts"]).2.2 := by
  have independent : AreIndependent pairedSetting mixedProject
      [.ofText "a.ts", .ofText "b.ts", .ofText "c.ts"] :=
    ⟨by decide +kernel, by decide +kernel⟩
  exact ⟨by decide +kernel, schedule_ends_as_transformAll (by decide) independent⟩

end Component

end Inlay
