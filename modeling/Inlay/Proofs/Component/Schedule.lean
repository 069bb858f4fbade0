import Mathlib.Logic.Relation
import Inlay.Component.Project
import Inlay.Proofs.Component.Revision
import Inlay.Proofs.Files.Changes

/-!
# Schedules

The source files of a project are transformed by tasks that take turns. A task reads its
source, asks for the resources that it needs one after another, and then writes: the file is
emptied when it is opened and filled afterwards. A step is one question of a task, the opening
or the filling of its file, and any task may take the next step; only for its first step it
needs a free slot. Transforming the files one after another is one of the schedules
(`transformAll_is_schedule`).
-/

set_option autoImplicit false

namespace Inlay

namespace Inquiry

variable {α : Type}

/-- The next step of an inquiry, or its result. -/
def advance (files : FileSystem) : Inquiry α → Except Fault α ⊕ Inquiry α
  | .done value => .inl (.ok value)
  | .fail fault => .inl (.error fault)
  | .note _ rest => .inr rest
  | .probe path rest => .inr (rest (files.probeFile path))
  | .read path rest => .inr (rest (files.read path))

end Inquiry

namespace Component

/-- How far the task of a source file has come. -/
inductive Stage where
  | waiting
  | asking (inquiry : Inquiry (Option Text))
  | opening (text : Text)
  | filling (text : Text)
  | ended (status : FileStatus)

namespace Stage

def conclude : Except Fault (Option Text) → Stage
  | .ok none => .ended .unchanged
  | .ok (some text) => .opening text
  | .error fault => .ended (.failed fault.message)

def next? (setting : Setting) (path : Path) : FileSystem × Stage → Option (FileSystem × Stage)
  | (_, .waiting) => none
  | (files, .asking inquiry) =>
      match inquiry.advance files with
      | .inl outcome => some (files, conclude outcome)
      | .inr later => some (files, .asking later)
  | (files, .opening text) =>
      match files.write path [] with
      | .error fault => some (files, .ended (.failed (Fault.access fault path.text).message))
      | .ok emptied => some (emptied, .filling text)
  | (files, .filling text) =>
      match setting.charset.encode text with
      | .error fault => some (files, .ended (.failed fault.message))
      | .ok bytes =>
          match files.write path bytes with
          | .error fault => some (files, .ended (.failed (Fault.access fault path.text).message))
          | .ok written => some (written, .ended .inlined)
  | (_, .ended _) => none

def isRunning : Stage → Bool
  | .waiting => false
  | .ended _ => false
  | _ => true

end Stage

structure Task where
  path : Path
  stage : Stage

namespace Task

def ofPath (path : Path) : Task := ⟨path, .waiting⟩

def ofResult (result : FileResult) : Task := ⟨result.path, .ended result.status⟩

end Task

/-- A project in work: its files, and the tasks in the order of the source files. -/
structure Batch where
  files : FileSystem
  tasks : List Task

namespace Batch

def start (files : FileSystem) (paths : List Path) : Batch :=
  ⟨files, paths.map .ofPath⟩

def ended (files : FileSystem) (results : List FileResult) : Batch :=
  ⟨files, results.map .ofResult⟩

/-- Whether one more task may begin. No bound is meant by zero. -/
def HasSlot (setting : Setting) (tasks : List Task) : Prop :=
  setting.options.maxConcurrency = 0 ∨
    (tasks.countP fun task => task.stage.isRunning) < setting.options.maxConcurrency

end Batch

/-- One step of a project in work, taken by any of its tasks. -/
inductive Step (setting : Setting) : Batch → Batch → Prop where
  | begin {files : FileSystem} {before behind : List Task} {path : Path}
      (slot : Batch.HasSlot setting (before ++ ⟨path, .waiting⟩ :: behind)) :
      Step setting ⟨files, before ++ ⟨path, .waiting⟩ :: behind⟩
        ⟨files, before ++ ⟨path, .asking (inlineFile setting path)⟩ :: behind⟩
  | proceed {files left : FileSystem} {before behind : List Task} {path : Path}
      {stage next : Stage} (moved : Stage.next? setting path (files, stage) = some (left, next)) :
      Step setting ⟨files, before ++ ⟨path, stage⟩ :: behind⟩
        ⟨left, before ++ ⟨path, next⟩ :: behind⟩

abbrev Schedule (setting : Setting) : Batch → Batch → Prop :=
  Relation.ReflTransGen (Step setting)

variable {setting : Setting} {files : FileSystem} {path : Path}

/-! ## The bound -/

theorem Stage.isRunning_of_next? {stage : Stage} {state : FileSystem × Stage}
    (moved : next? setting path (files, stage) = some state) : stage.isRunning = true := by
  cases stage with
  | waiting => cases moved
  | ended status => cases moved
  | asking inquiry => rfl
  | opening text => rfl
  | filling text => rfl

/-- No schedule has more files in work at once than the bound allows. -/
theorem countP_isRunning_le {paths : List Path} {batch : Batch}
    (bounded : 0 < setting.options.maxConcurrency)
    (schedule : Schedule setting (.start files paths) batch) :
    (batch.tasks.countP fun task => task.stage.isRunning) ≤ setting.options.maxConcurrency := by
  induction schedule with
  | refl =>
      have idle : ((Batch.start files paths).tasks.countP fun task => task.stage.isRunning) = 0 := by
        simp [Batch.start, Task.ofPath, Stage.isRunning, List.countP_map]
      omega
  | tail _ step ih =>
      cases step with
      | begin slot =>
          unfold Batch.HasSlot at slot
          simp only [List.countP_append, List.countP_cons, Stage.isRunning, Bool.false_eq_true,
            if_false, if_true] at slot ⊢
          omega
      | @proceed files left before behind path stage next moved =>
          have running := Stage.isRunning_of_next? moved
          simp only [List.countP_append, List.countP_cons, running, if_true] at ih ⊢
          cases next.isRunning <;> simp only [Bool.false_eq_true, if_false, if_true] <;> omega

/-! ## Transforming the files one after another -/

/-- The steps of one task while no other task takes any. -/
abbrev Alone (setting : Setting) (path : Path) : FileSystem × Stage → FileSystem × Stage → Prop :=
  Relation.ReflTransGen fun state next => Stage.next? setting path state = some next

theorem alone_conclude (inquiry : Inquiry (Option Text)) :
    Alone setting path (files, .asking inquiry)
      (files, .conclude (inquiry.result files)) := by
  induction inquiry with
  | done value => exact .single rfl
  | fail fault => exact .single rfl
  | note entry rest ih => exact .head rfl ih
  | probe asked rest ih => exact .head rfl (ih _)
  | read asked rest ih => exact .head rfl (ih _)

theorem Revision.alone_fill (revision : Revision setting files path) :
    Alone setting path (files, .opening revision.text)
      (files.put revision.location (.file []), .filling revision.text) := by
  refine .single ?_
  simp only [Stage.next?, FileSystem.write_of_find?_file revision.located revision.found]

theorem Revision.encode_eq (revision : Revision setting files path) :
    setting.charset.encode revision.text =
      match revision.codec.encode revision.text with
      | .error failure => .error (.encoding failure)
      | .ok bytes => .ok bytes := by
  rw [Charset.encode, revision.named]
  dsimp only
  cases revision.codec.encode revision.text <;> rfl

/-- What a task does on its own is what transforming its file does. -/
theorem alone_transformGuarded (setting : Setting) (files : FileSystem) (path : Path) :
    Alone setting path (files, .asking (inlineFile setting path))
      ((transformGuarded setting files path).1,
        .ended (transformGuarded setting files path).2.2.status) := by
  have asked : Alone setting path (files, .asking (inlineFile setting path))
      (files, .conclude ((inlineFile setting path).result files)) := alone_conclude _
  refine asked.trans ?_
  unfold transformGuarded
  rcases transformFile_cases setting files path with
    ⟨fault, inlining, kept, failed⟩ | ⟨inlining, kept, done⟩ |
      ⟨revision, fault, encoded, emptied, failed⟩ | ⟨revision, bytes, encoded, filled, done⟩
  · simp only [inlining, kept, failed]
    exact .refl
  · simp only [inlining, kept, done]
    exact .refl
  · simp only [revision.result_inlineFile, emptied, failed]
    refine revision.alone_fill.tail ?_
    simp only [Stage.next?, revision.encode_eq, encoded]
  · simp only [revision.result_inlineFile, filled, done]
    refine revision.alone_fill.tail ?_
    simp only [Stage.next?, revision.encode_eq, encoded,
      FileSystem.write_put revision.located revision.found]

theorem Alone.schedule {state next : FileSystem × Stage}
    (alone : Alone setting path state next) (before behind : List Task) :
    Schedule setting ⟨state.1, before ++ ⟨path, state.2⟩ :: behind⟩
      ⟨next.1, before ++ ⟨path, next.2⟩ :: behind⟩ := by
  induction alone with
  | refl => exact .refl
  | tail _ moved ih => exact ih.tail (.proceed moved)

theorem ofResult_transformGuarded (setting : Setting) (files : FileSystem) (path : Path) :
    Task.ofResult (transformGuarded setting files path).2.2 =
      ⟨path, .ended (transformGuarded setting files path).2.2.status⟩ := by
  unfold transformGuarded
  dsimp only
  split <;> rfl

theorem files_transformAll_cons (setting : Setting) (files : FileSystem) (path : Path)
    (paths : List Path) :
    (transformAll setting files (path :: paths)).1 =
      (transformAll setting (transformGuarded setting files path).1 paths).1 := rfl

theorem results_transformAll_cons (setting : Setting) (files : FileSystem) (path : Path)
    (paths : List Path) :
    (transformAll setting files (path :: paths)).2.2 =
      (transformGuarded setting files path).2.2 ::
        (transformAll setting (transformGuarded setting files path).1 paths).2.2 := rfl

theorem hasSlot_of_idle {tasks : List Task} (counted : 0 ≤ setting.options.maxConcurrency)
    (idle : ∀ task ∈ tasks, task.stage.isRunning = false) : Batch.HasSlot setting tasks := by
  have none : tasks.countP (fun task => task.stage.isRunning) = 0 := by
    rw [List.countP_eq_zero]
    intro task member running
    rw [idle task member] at running
    cases running
  rw [Batch.HasSlot, none]
  omega

/-- The tasks of the files that were transformed have ended, those of the others wait. -/
theorem schedule_transformAll (counted : 0 ≤ setting.options.maxConcurrency)
    (files : FileSystem) (paths : List Path) (done : List FileResult) :
    Schedule setting ⟨files, done.map .ofResult ++ paths.map .ofPath⟩
      (.ended (transformAll setting files paths).1
        (done ++ (transformAll setting files paths).2.2)) := by
  induction paths generalizing files done with
  | nil => simpa [Batch.ended, transformAll] using Relation.ReflTransGen.refl
  | cons path paths ih =>
      have slot : Batch.HasSlot setting
          (done.map .ofResult ++ ⟨path, .waiting⟩ :: paths.map .ofPath) := by
        refine hasSlot_of_idle counted fun task member => ?_
        simp only [List.mem_append, List.mem_cons, List.mem_map] at member
        rcases member with ⟨result, _, rfl⟩ | rfl | ⟨other, _, rfl⟩ <;> rfl
      have first := (alone_transformGuarded setting files path).schedule (done.map .ofResult)
        (paths.map .ofPath)
      have others := ih (transformGuarded setting files path).1
        (done ++ [(transformGuarded setting files path).2.2])
      rw [List.map_append, List.append_assoc, List.append_assoc, List.map_singleton,
        List.singleton_append, List.singleton_append, ofResult_transformGuarded] at others
      rw [files_transformAll_cons, results_transformAll_cons]
      exact .head (.begin slot) (first.trans others)

/-- Transforming files one after another is a schedule, whatever the bound is. -/
theorem transformAll_is_schedule (counted : 0 ≤ setting.options.maxConcurrency)
    (files : FileSystem) (paths : List Path) :
    Schedule setting (.start files paths)
      (.ended (transformAll setting files paths).1 (transformAll setting files paths).2.2) :=
  schedule_transformAll counted files paths []

end Component

end Inlay
