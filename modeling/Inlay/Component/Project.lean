import Inlay.Component.Transform
import Inlay.Discovery.Candidates

/-!
# Projects

All candidate files of a project are transformed. A file that fails is reported and stops no
other one.
-/

set_option autoImplicit false

namespace Inlay

/-- The outcome of a run over a whole project. -/
structure RunSummary where
  project : Path
  results : List FileResult
deriving Repr, DecidableEq

namespace RunSummary

def total (summary : RunSummary) : Nat := summary.results.length

def inlined (summary : RunSummary) : Nat :=
  summary.results.countP fun result => result.status == .inlined

def unchanged (summary : RunSummary) : Nat :=
  summary.results.countP fun result => result.status == .unchanged

/-- The files that failed, with the wording of the fault. -/
def failures (summary : RunSummary) : List (Path × Text) :=
  summary.results.filterMap fun result =>
    match result.status with
    | .failed message => some (result.path, message)
    | _ => none

def status (summary : RunSummary) : String :=
  if summary.failures.isEmpty then "completed" else "completed_with_errors"

end RunSummary

/-- The files of a project that are worked on. -/
def Setting.candidates (setting : Setting) (files : FileSystem) (root : Path) :
    Except Fault (List Path) :=
  Discovery.candidates setting.host.limits files root setting.options.includes
    setting.options.excludes

namespace Component

/-- Transforms one file of a project; a fault becomes its status. -/
def transformGuarded (setting : Setting) (files : FileSystem) (path : Path) :
    FileSystem × List LogEntry × FileResult :=
  let outcome := transformFile setting files path
  match outcome.result with
  | .ok status => (outcome.files, outcome.reports, ⟨path, status⟩)
  | .error fault =>
      (outcome.files, outcome.reports ++ [failedEntry path fault], ⟨path, .failed fault.message⟩)

def transformAll (setting : Setting) (files : FileSystem) :
    List Path → FileSystem × List LogEntry × List FileResult
  | [] => (files, [], [])
  | path :: paths =>
      let (files, first, result) := transformGuarded setting files path
      let (files, others, results) := transformAll setting files paths
      (files, first ++ others, result :: results)

def foundEntry (root : Path) (count : Nat) : LogEntry :=
  { severity := .debug
    channel := .inliner
    message := s!"Found {count} candidate files under " ++ root.text }

/-- Transforms the candidate files of a project. A negative number of files in work at once is
refused once the candidates are known. -/
def inlineProject (setting : Setting) (files : FileSystem) (root : Path) :
    Outcome (List FileResult) :=
  match setting.candidates files root with
  | .error fault => ⟨files, [], .error fault⟩
  | .ok paths =>
      let found := foundEntry root paths.length
      if setting.options.maxConcurrency < 0 then ⟨files, [found], .error (.config .negativeSlots)⟩
      else
        let (left, reports, results) := transformAll setting files paths
        ⟨left, found :: reports, .ok results⟩

def startedEntry (project : Text) : LogEntry :=
  { severity := .info
    channel := .inliner
    message := "Inlining resources from project: " ++ project }

def endedEntry (summary : RunSummary) : LogEntry :=
  { severity := .info
    channel := .inliner
    message :=
      s!"Inlined {summary.inlined} of {summary.total} files " ++
        s!"({summary.failures.length} failed)"
    timed := true }

/-- A run over the project at a path, which has to be a directory. -/
def runProject (setting : Setting) (files : FileSystem) (project : Text) : Outcome RunSummary :=
  let root := Path.ofText project
  match files.look root with
  | .error fault => ⟨files, [], .error (.access fault root.text)⟩
  | .ok (some .directory) =>
      let outcome := inlineProject setting files root
      match outcome.result with
      | .error fault => ⟨outcome.files, startedEntry project :: outcome.reports, .error fault⟩
      | .ok results =>
          let summary := ⟨root, results⟩
          ⟨outcome.files, startedEntry project :: (outcome.reports ++ [endedEntry summary]),
            .ok summary⟩
  | .ok _ => ⟨files, [], .error (.projectNotFound project)⟩

end Component

end Inlay
