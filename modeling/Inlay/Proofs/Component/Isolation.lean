import Inlay.Proofs.Component.Confinement
import Inlay.Proofs.Component.Interleaving
import Inlay.Proofs.Component.OwnReferences
import Inlay.Proofs.Component.Races
import Inlay.Proofs.Discovery.Order
import Inlay.Proofs.Files.Walks
import Mathlib.Data.List.Nodup

/-!
# Isolation of source files

What becomes of a source file that stands alone depends on what is found at the paths that its
inlining asks about, and on nothing else: two runs over the same source files that find the same
there end alike for it, whatever the other files are and however the runs are scheduled
(`failure_is_isolated`). If several styles of the file cannot be loaded, the runs may tell different
ones of their faults, as the loads race.
-/

set_option autoImplicit false

namespace Inlay

namespace FileSystem

variable {files other : FileSystem} {path : Path} {location location' : Location}

theorem locate_unique (sameDirectory : files.workingDirectory = other.workingDirectory)
    (located : files.locate path = .ok location)
    (located' : other.locate path = .ok location') : location = location' := by
  unfold locate at located located'
  rw [← sameDirectory] at located'
  split at located
  · cases located
  · split at located
    · cases located
    · next accepted short =>
        rw [accepted] at located'
        dsimp only at located'
        rw [if_neg short] at located'
        exact walk_unique located located'

theorem read_of_lookup (same : files.lookup path = other.lookup path) :
    files.read path = other.read path := by
  rw [read, read, same]

theorem probeFile_of_lookup (same : files.lookup path = other.lookup path) :
    files.probeFile path = other.probeFile path := by
  rw [probeFile, probeFile, look, look, same]

/-- Two paths that lead together in one file system do so in another one that finds the same at
the first of them and a file at the second. -/
theorem leadTogether_of_lookup {asked : Path}
    (sameDirectory : files.workingDirectory = other.workingDirectory)
    (same : files.lookup asked = other.lookup asked) (source : files.isFile path = true)
    (source' : other.isFile path = true) (together : other.LeadTogether asked path) :
    files.LeadTogether asked path := by
  obtain ⟨location, asks, leads⟩ := together
  obtain ⟨place, bytes, located, found⟩ := isFile_iff.mp source
  obtain ⟨place', bytes', located', found'⟩ := isFile_iff.mp source'
  obtain rfl : place = location := locate_unique sameDirectory located leads
  rw [leads] at located'
  cases located'
  have looked : files.lookup asked = .ok (.file bytes') :=
    same.trans (lookup_eq_ok_iff.mpr ⟨place, asks, found'⟩)
  obtain ⟨place', asks', -⟩ := lookup_eq_ok_iff.mp looked
  obtain rfl : place' = place := locate_unique sameDirectory asks' asks
  exact ⟨place', asks', located⟩

end FileSystem

namespace Inquiry

variable {α : Type} {files other : FileSystem} {inquiry : Inquiry α}

theorem eq_of_footprint
    (agree : ∀ asked ∈ inquiry.footprint files, files.lookup asked = other.lookup asked) :
    inquiry.result other = inquiry.result files ∧ inquiry.reads other = inquiry.reads files := by
  induction inquiry with
  | done value => exact ⟨rfl, rfl⟩
  | fail fault => exact ⟨rfl, rfl⟩
  | note entry rest ih => exact ih agree
  | probe path rest ih =>
      have answer := FileSystem.probeFile_of_lookup (agree path (.head _))
      have later := ih _ fun asked member => agree asked (.tail _ member)
      simp only [result, reads, ← answer]
      exact later
  | read path rest ih =>
      have answer := FileSystem.read_of_lookup (agree path (.head _))
      have later := ih _ fun asked member => agree asked (.tail _ member)
      simp only [result, reads, ← answer]
      exact ⟨later.1, congrArg (path :: ·) later.2⟩

theorem reads_subset_footprint : inquiry.reads files ⊆ inquiry.footprint files := by
  induction inquiry with
  | done value => exact List.Subset.refl _
  | fail fault => exact List.Subset.refl _
  | note entry rest ih => exact ih
  | probe path rest ih => exact List.subset_cons_of_subset _ (ih _)
  | read path rest ih => exact List.cons_subset_cons _ (ih _)

end Inquiry

namespace Component

variable {setting : Setting} {files other left : FileSystem} {paths : List Path} {path : Path}
  {batch : Batch} {changes : Changes files} {results : List FileResult}

/-- No other source file is the file of this one, or is read while this one is inlined. -/
def StandsAlone (setting : Setting) (files : FileSystem) (paths : List Path) (path : Path) :
    Prop :=
  ∀ candidate ∈ paths, candidate ≠ path →
    ∀ asked ∈ path :: (inlineFile setting path).reads files,
      ¬ files.LeadTogether asked candidate

instance (setting : Setting) (files : FileSystem) (paths : List Path) (path : Path) :
    Decidable (StandsAlone setting files paths path) :=
  inferInstanceAs (Decidable (∀ candidate ∈ paths, _))

/-- The same is found where the inlining of a source file asks. -/
def AgreeFor (setting : Setting) (files other : FileSystem) (path : Path) : Prop :=
  ∀ asked ∈ path :: (inlineFile setting path).footprint files,
    files.lookup asked = other.lookup asked

instance (setting : Setting) (files other : FileSystem) (path : Path) :
    Decidable (AgreeFor setting files other path) :=
  inferInstanceAs (Decidable (∀ asked ∈ _, _))

theorem AgreeFor.withRace (agree : AgreeFor setting files other path) (race : Path → Race) :
    AgreeFor (setting.withRace race) files other path := by
  unfold AgreeFor
  rw [← (raced_inlineFile setting race files path).footprint_eq]
  exact agree

theorem StandsAlone.withRace (alone : StandsAlone setting files paths path) (race : Path → Race) :
    StandsAlone (setting.withRace race) files paths path := by
  unfold StandsAlone
  rw [← (raced_inlineFile setting race files path).reads_eq]
  exact alone

theorem AgreeFor.result_eq (agree : AgreeFor setting files other path) :
    (inlineFile setting path).result other = (inlineFile setting path).result files :=
  (Inquiry.eq_of_footprint fun asked member => agree asked (.tail _ member)).1

theorem AgreeFor.conclusion_eq (agree : AgreeFor setting files other path) :
    conclusion setting other path = conclusion setting files path := by
  rw [conclusion, conclusion, agree.result_eq]

theorem StandsAlone.transfer (alone : StandsAlone setting files paths path)
    (agree : AgreeFor setting files other path)
    (sameDirectory : files.workingDirectory = other.workingDirectory)
    (sources : ∀ path ∈ paths, files.isFile path = true)
    (sources' : ∀ path ∈ paths, other.isFile path = true) :
    StandsAlone setting other paths path := by
  intro candidate among differ asked member together
  have reads := (Inquiry.eq_of_footprint fun asked member => agree asked (.tail _ member)).2
  rw [reads] at member
  have consulted : asked ∈ path :: (inlineFile setting path).footprint files :=
    List.cons_subset_cons _ Inquiry.reads_subset_footprint member
  exact alone candidate among differ asked member
    (FileSystem.leadTogether_of_lookup sameDirectory (agree asked consulted)
      (sources candidate among) (sources' candidate among) together)

/-! ## The task of one file among others -/

/-- The task of one source file is on its track, whatever the other tasks do to their files. -/
structure Isolated (setting : Setting) (files : FileSystem) (paths : List Path) (path : Path)
    (batch : Batch) (changes : Changes files) : Prop where
  files_eq : batch.files = changes.apply
  paths_eq : batch.tasks.map Task.path = paths
  tracked : ∀ task ∈ batch.tasks, task.path = path →
    Tracks setting files path task.stage (changes.under? path)
  owned : ∀ {location : Location} {bytes : Bytes}, changes.content location = some bytes →
    ∃ path ∈ paths, files.locate path = .ok location

theorem isolated_start (setting : Setting) (files : FileSystem) (paths : List Path)
    (path : Path) : Isolated setting files paths path (.start files paths) (.none files) where
  files_eq := Changes.apply_none.symm
  paths_eq := (follows_start setting files paths).paths_eq
  tracked := by
    rintro task member rfl
    exact (follows_start setting files paths).tracked task member
  owned := nofun

theorem Isolated.untouched (isolated : Isolated setting files paths path batch changes)
    (alone : StandsAlone setting files paths path) (unwritten : changes.under? path = none) :
    ∀ asked ∈ (inlineFile setting path).reads files, changes.under? asked = none :=
  untouched_of_owned isolated.owned
    (fun candidate among differ asked member =>
      alone candidate among differ asked (.tail _ member)) unwritten

theorem Isolated.replace {before behind : List Task} {turn : Path} {stage next : Stage}
    {later : Changes files}
    (isolated : Isolated setting files paths path ⟨left, before ++ ⟨turn, stage⟩ :: behind⟩ changes)
    (once : paths.Nodup) (alone : StandsAlone setting files paths path)
    (others : ∀ place, files.locate turn ≠ .ok place →
      later.content place = changes.content place)
    (own : turn = path → Tracks setting files path next (later.under? path)) :
    Isolated setting files paths path ⟨later.apply, before ++ ⟨turn, next⟩ :: behind⟩ later := by
  have paths_eq : (before ++ (⟨turn, stage⟩ : Task) :: behind).map Task.path = paths :=
    isolated.paths_eq
  have among : turn ∈ paths := by simp [← paths_eq]
  refine ⟨rfl, by simpa using paths_eq, ?_, Changes.owned_of_others others among isolated.owned⟩
  intro task member same
  rcases List.mem_cons.mp (List.perm_middle.mem_iff.mp member) with rfl | rest
  · exact own same
  · -- The other tasks have other paths, so it is not the file of this one that has changed.
    have apart : turn ≠ path := by
      rintro rfl
      rw [← paths_eq, List.map_append, List.map_cons, List.nodup_middle] at once
      refine (List.nodup_cons.mp once).1 ?_
      rw [← List.map_append]
      exact List.mem_map.mpr ⟨task, rest, same⟩
    have kept : later.under? path = changes.under? path :=
      Changes.under?_eq_of_others others fun together =>
        alone turn among apart path (.head _) together.symm
    rw [kept]
    exact isolated.tracked task (List.perm_middle.mem_iff.mpr (.tail _ rest)) same

theorem Isolated.step {after : Batch} (isolated : Isolated setting files paths path batch changes)
    (once : paths.Nodup) (sources : ∀ path ∈ paths, files.isFile path = true)
    (alone : StandsAlone setting files paths path) (step : Step setting batch after) :
    ∃ later : Changes files, Isolated setting files paths path after later := by
  cases step with
  | @begin current before behind turn slot =>
      obtain rfl : current = changes.apply := isolated.files_eq
      refine ⟨changes, isolated.replace once alone (fun _ _ => rfl) ?_⟩
      rintro rfl
      have tracked : Tracks setting files turn .waiting (changes.under? turn) :=
        isolated.tracked ⟨turn, .waiting⟩ (List.mem_append_right _ (.head _)) rfl
      generalize changes.under? turn = written at tracked
      cases tracked
      exact .asking rfl (List.Subset.refl _)
  | @proceed current left before behind turn stage next moved =>
      obtain rfl : current = changes.apply := isolated.files_eq
      have among : turn ∈ paths := by simp [← isolated.paths_eq]
      by_cases same : turn = path
      · subst same
        have tracked : Tracks setting files turn stage (changes.under? turn) :=
          isolated.tracked ⟨turn, stage⟩ (List.mem_append_right _ (.head _)) rfl
        obtain ⟨later, rfl, stays⟩ := tracked.goes_on (isolated.untouched alone) moved
        exact ⟨later, isolated.replace once alone stays.others fun _ => stays.tracked⟩
      · obtain ⟨location, old, located, found⟩ := FileSystem.isFile_iff.mp (sources turn among)
        obtain ⟨later, rfl, changed⟩ := changesOwn_of_next? located found moved
        refine ⟨later, isolated.replace once alone ?_ fun equal => absurd equal same⟩
        intro place apart
        exact changed.others place fun here => apart (here ▸ located)

theorem isolated_of_schedule (once : paths.Nodup)
    (sources : ∀ path ∈ paths, files.isFile path = true)
    (alone : StandsAlone setting files paths path)
    (schedule : Schedule setting (.start files paths) batch) :
    ∃ changes : Changes files, Isolated setting files paths path batch changes := by
  induction schedule with
  | refl => exact ⟨_, isolated_start setting files paths path⟩
  | tail _ step ih =>
      obtain ⟨changes, isolated⟩ := ih
      exact isolated.step once sources alone step

/-! ## Two runs -/

/-- A run has one result for a source file, and one answer for who reads the file behind it. -/
structure EndsFor (path : Path) (status : FileStatus) (answer : Except AccessFault Bytes)
    (left : FileSystem) (results : List FileResult) : Prop where
  reported : ∀ result, (result ∈ results ∧ result.path = path) ↔ result = ⟨path, status⟩
  content : left.read path = answer

theorem Isolated.endsFor
    (isolated : Isolated setting files paths path (.ended left results) changes)
    (among : path ∈ paths) :
    EndsFor path (conclusion setting files path).1
      ((conclusion setting files path).2.elim (files.read path) .ok) left results := by
  have concluded : ∀ result ∈ results, result.path = path →
      conclusion setting files path = (result.status, changes.under? path) := by
    intro result member same
    have tracked : Tracks setting files path (.ended result.status) (changes.under? path) :=
      isolated.tracked (.ofResult result) (List.mem_map_of_mem member) same
    generalize changes.under? path = written at tracked
    cases tracked with
    | ended concluded => exact concluded
  rw [← isolated.paths_eq, map_path_ended] at among
  obtain ⟨own, member, same⟩ := List.mem_map.mp among
  have ends := concluded own member same
  constructor
  · intro result
    constructor
    · rintro ⟨reported, rfl⟩
      rw [concluded result reported rfl]
    · rintro rfl
      rw [ends, ← same]
      exact ⟨member, rfl⟩
  · rw [ends]
    have files_eq : left = changes.apply := isolated.files_eq
    rw [files_eq]
    exact changes.read_apply_eq path

theorem exists_results_of_schedules {root : Path} {status : FileStatus}
    {answer : Except AccessFault Bytes}
    (ends : ∀ left results, Schedule setting (.start files paths) (.ended left results) →
      EndsFor path status answer left results)
    (found : setting.candidates files root = .ok paths)
    (counted : 0 ≤ setting.options.maxConcurrency) :
    ∃ results, (inlineProject setting files root).result = .ok results ∧
      EndsFor path status answer (inlineProject setting files root).files results := by
  obtain ⟨leaves, results⟩ := inlineProject_of_candidates found counted
  refine ⟨_, results, ?_⟩
  rw [leaves]
  exact ends _ _ (transformAll_is_schedule counted files paths)

/-- Two statuses that are the same, or tell two of the faults that take part in a race. -/
inductive SameButForRace (faults : List Fault) : FileStatus → FileStatus → Prop where
  | same (status : FileStatus) : SameButForRace faults status status
  | raced {told other : Fault} : told ∈ faults → other ∈ faults → told ≠ other →
      SameButForRace faults (.failed told.message) (.failed other.message)

/-- A file that fails in the race of its styles is not written. -/
theorem conclusion_withRace (setting : Setting) (race : Path → Race) (files : FileSystem)
    (path : Path) :
    SameButForRace (styleFaults setting files path) (conclusion setting files path).1
        (conclusion (setting.withRace race) files path).1 ∧
      (conclusion (setting.withRace race) files path).2 = (conclusion setting files path).2 := by
  have ends := (raced_inlineFile setting race files path).ends
  unfold conclusion
  generalize (inlineFile setting path).result files = result,
    (inlineFile (setting.withRace race) path).result files = otherResult at ends
  cases ends with
  | same result => exact ⟨.same _, rfl⟩
  | raced told other differ => exact ⟨.raced told other differ, rfl⟩

/-- Two runs over the same source files that find the same wherever the inlining of one of them
asks end alike for this one, if it stands alone: with the same bytes, and with the same status but
for the race of its styles. -/
theorem failure_is_isolated {root : Path} (race : Path → Race)
    (sameDirectory : files.workingDirectory = other.workingDirectory)
    (found : setting.candidates files root = .ok paths)
    (found' : setting.candidates other root = .ok paths)
    (among : path ∈ paths) (alone : StandsAlone setting files paths path)
    (agree : AgreeFor setting files other path) :
    ∃ status status' answer,
      SameButForRace (styleFaults setting files path) status status' ∧
      (race path = setting.host.race path → status = status') ∧
      (∀ left results, Schedule setting (.start files paths) (.ended left results) →
        EndsFor path status answer left results) ∧
      (∀ left results, Schedule (setting.withRace race) (.start other paths)
          (.ended left results) → EndsFor path status' answer left results) ∧
      (0 ≤ setting.options.maxConcurrency → ∃ results results',
        (inlineProject setting files root).result = .ok results ∧
        (inlineProject (setting.withRace race) other root).result = .ok results' ∧
        EndsFor path status answer (inlineProject setting files root).files results ∧
        EndsFor path status' answer (inlineProject (setting.withRace race) other root).files
          results') := by
  obtain ⟨-, once, sources⟩ := Discovery.candidates_spec found
  obtain ⟨-, -, sources'⟩ := Discovery.candidates_spec found'
  obtain ⟨status, written⟩ := conclusion_withRace setting race files path
  have agree' := agree.withRace race
  have first : ∀ left results, Schedule setting (.start files paths) (.ended left results) →
      EndsFor path (conclusion setting files path).1
        ((conclusion setting files path).2.elim (files.read path) .ok) left results := by
    intro left results schedule
    obtain ⟨changes, isolated⟩ := isolated_of_schedule once sources alone schedule
    exact isolated.endsFor among
  have second : ∀ left results, Schedule (setting.withRace race) (.start other paths)
      (.ended left results) →
      EndsFor path (conclusion (setting.withRace race) files path).1
        ((conclusion setting files path).2.elim (files.read path) .ok) left results := by
    intro left results schedule
    have alone' := (alone.withRace race).transfer agree' sameDirectory sources sources'
    obtain ⟨changes, isolated⟩ := isolated_of_schedule once sources' alone' schedule
    rw [← written, ← agree'.conclusion_eq, FileSystem.read_of_lookup (agree path (.head _))]
    exact isolated.endsFor among
  have sameRace : race path = setting.host.race path →
      (conclusion setting files path).1 = (conclusion (setting.withRace race) files path).1 := by
    intro same
    have inquiry : inlineFile (setting.withRace race) path = inlineFile setting path := by
      unfold inlineFile
      rw [← same]
      rfl
    simp only [conclusion, inquiry]
    rfl
  refine ⟨_, _, _, status, sameRace, first, second, fun counted => ?_⟩
  obtain ⟨results, done, ends⟩ := exists_results_of_schedules first found counted
  obtain ⟨results', done', ends'⟩ := exists_results_of_schedules second found' counted
  exact ⟨results, results', done, done', ends, ends'⟩

def calmProject : FileSystem where
  entries :=
    [(["a.ts"], .file (Utf8.encode "templateUrl: 'a.html'")),
     (["a.html"], .file (Utf8.encode "x")),
     (["b.ts"], .file (Utf8.encode "y")),
     (["c.ts"], .file (Utf8.encode "z"))]
  workingDirectory := []

/-- The last fault in the order of the loads is the first one in time. -/
def lastRace : Path → Race := fun _ faults => faults.length - 1

theorem failure_is_isolated_in_mixedProject :
    StandsAlone pairedSetting mixedProject [.ofText "a.ts", .ofText "b.ts", .ofText "c.ts"]
        (.ofText "a.ts") ∧
      AgreeFor pairedSetting mixedProject calmProject (.ofText "a.ts") ∧
      ∃ status answer results results',
        (inlineProject pairedSetting mixedProject (.ofText ".")).result = .ok results ∧
        (inlineProject (pairedSetting.withRace lastRace) calmProject (.ofText ".")).result =
          .ok results' ∧
        EndsFor (.ofText "a.ts") status answer
          (inlineProject pairedSetting mixedProject (.ofText ".")).files results ∧
        EndsFor (.ofText "a.ts") status answer
          (inlineProject (pairedSetting.withRace lastRace) calmProject (.ofText ".")).files
            results' := by
  have alone : StandsAlone pairedSetting mixedProject
      [.ofText "a.ts", .ofText "b.ts", .ofText "c.ts"] (.ofText "a.ts") := by decide +kernel
  have agree : AgreeFor pairedSetting mixedProject calmProject (.ofText "a.ts") := by
    decide +kernel
  have found : pairedSetting.candidates mixedProject (.ofText ".") =
      .ok [.ofText "a.ts", .ofText "b.ts", .ofText "c.ts"] := by decide +kernel
  have found' : pairedSetting.candidates calmProject (.ofText ".") =
      .ok [.ofText "a.ts", .ofText "b.ts", .ofText "c.ts"] := by decide +kernel
  have sameDirectory : mixedProject.workingDirectory = calmProject.workingDirectory := rfl
  obtain ⟨status, status', answer, sameStatus, -, -, -, runs⟩ :=
    failure_is_isolated lastRace sameDirectory found found' (.head _) alone agree
  obtain ⟨results, results', done, done', ends, ends'⟩ := runs (by decide)
  have unraced : styleFaults pairedSetting mixedProject (.ofText "a.ts") = [] := by decide +kernel
  rw [unraced] at sameStatus
  cases sameStatus with
  | same => exact ⟨alone, agree, status, answer, results, results', done, done', ends, ends'⟩
  | raced member => cases member

/-- A component whose template would be below a directory `x`, with what stands in its place. -/
def strayProject (stray : List (Location × Entry)) : FileSystem where
  entries :=
    (["p"], .directory) ::
      (["p", "a.ts"], .file (Utf8.encode "templateUrl: 'x/a.html'")) :: stray
  workingDirectory := []

/-- A component with two style references, beside a directory through which it can be reached
too. -/
def twiceStyledProject (others : List (Location × Entry)) : FileSystem where
  entries :=
    (["p"], .directory) :: (["p", "s"], .directory) ::
      (["p", "a.ts"], .file (Utf8.encode "styleUrls:['x.css'] styleUrls:['y.css']")) ::
      (["p", "x.css"], .file (Utf8.encode "x")) :: others
  workingDirectory := []

def twofoldSetting : Setting :=
  ⟨{ includes := ["*.ts", "s/../*.ts"], maxConcurrency := 1 }, [], .common .ok⟩

/-- A component none of whose styles is there. -/
def styleless : FileSystem where
  entries := [(["a.ts"], .file (Utf8.encode "styleUrls:['x.css', 'y.css']"))]
  workingDirectory := []

/-- The two runs may end differently where a path that leads to nothing does so for another
reason, where another source file is the same file, and where another style fails first. -/
theorem failure_may_be_noticed :
    (¬ ∀ (setting : Setting) (files other : FileSystem) (root path : Path) (paths : List Path)
      (results results' : List FileResult),
      files.workingDirectory = other.workingDirectory →
      setting.candidates files root = .ok paths →
      setting.candidates other root = .ok paths →
      path ∈ paths → StandsAlone setting files paths path →
      (∀ asked ∈ path :: (inlineFile setting path).footprint files,
        files.exists? asked = other.exists? asked ∧
          (files.read asked).toOption = (other.read asked).toOption) →
      (inlineProject setting files root).result = .ok results →
      (inlineProject setting other root).result = .ok results' →
      results.filter (fun result => result.path = path) =
        results'.filter fun result => result.path = path) ∧
    (¬ ∀ (setting : Setting) (files other : FileSystem) (root path : Path) (paths : List Path)
      (results results' : List FileResult),
      files.workingDirectory = other.workingDirectory →
      setting.candidates files root = .ok paths →
      setting.candidates other root = .ok paths →
      path ∈ paths →
      (∀ candidate ∈ paths, candidate ≠ path →
        ∀ asked ∈ (inlineFile setting path).reads files, asked ≠ path →
          ¬ files.LeadTogether asked candidate) →
      AgreeFor setting files other path →
      (inlineProject setting files root).result = .ok results →
      (inlineProject setting other root).result = .ok results' →
      results.filter (fun result => result.path = path) =
        results'.filter fun result => result.path = path) ∧
    ¬ ∀ (setting : Setting) (race : Path → Race) (files : FileSystem) (root path : Path)
      (paths : List Path) (results results' : List FileResult),
      setting.candidates files root = .ok paths →
      path ∈ paths → StandsAlone setting files paths path →
      (inlineProject setting files root).result = .ok results →
      (inlineProject (setting.withRace race) files root).result = .ok results' →
      results.filter (fun result => result.path = path) =
        results'.filter fun result => result.path = path := by
  refine ⟨?_, ?_, ?_⟩
  · intro isolates
    have same := isolates plainSetting (strayProject [])
      (strayProject [(["p", "x"], .file (Utf8.encode "y"))]) (.ofText "p") (.ofText "p/a.ts")
      [.ofText "p/a.ts"] [⟨.ofText "p/a.ts", .failed "Resource not found: p/x/a.html"⟩]
      [⟨.ofText "p/a.ts", .failed "[Errno 20] Not a directory: 'p/x/a.html'"⟩]
      (by decide +kernel) (by decide +kernel) (by decide +kernel) (by decide +kernel)
      (by decide +kernel) (by decide +kernel) (by decide +kernel) (by decide +kernel)
    revert same
    decide +kernel
  · intro isolates
    have same := isolates twofoldSetting
      (twiceStyledProject [(["p", "y.css"], .file (Utf8.encode "y"))]) (twiceStyledProject [])
      (.ofText "p") (.ofText "p/s/../a.ts") [.ofText "p/a.ts", .ofText "p/s/../a.ts"]
      [⟨.ofText "p/a.ts", .inlined⟩, ⟨.ofText "p/s/../a.ts", .inlined⟩]
      [⟨.ofText "p/a.ts", .inlined⟩,
        ⟨.ofText "p/s/../a.ts", .failed "Resource not found: p/y.css"⟩]
      (by decide +kernel) (by decide +kernel) (by decide +kernel) (by decide +kernel)
      (by decide +kernel) (by decide +kernel) (by decide +kernel) (by decide +kernel)
    revert same
    decide +kernel
  · intro isolates
    have same := isolates plainSetting lastRace styleless (.ofText ".") (.ofText "a.ts")
      [.ofText "a.ts"] [⟨.ofText "a.ts", .failed "Resource not found: x.css"⟩]
      [⟨.ofText "a.ts", .failed "Resource not found: y.css"⟩]
      (by decide +kernel) (by decide +kernel) (by decide +kernel) (by decide +kernel)
      (by decide +kernel)
    revert same
    decide +kernel

end Component

end Inlay
