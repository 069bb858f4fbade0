import Inlay.Command.Arguments
import Inlay.Command.Terminal
import Inlay.Component.Project
import Inlay.Config.Load
import Inlay.Logging

/-!
# The command

One run of the command: it follows its arguments, loads the configuration, opens the sinks,
runs over the project and prints the summary.
-/

set_option autoImplicit false

namespace Inlay.Command

/-- What a run of the command leaves behind. A fault that it does not report itself ends it
abnormally. -/
structure CommandOutcome where
  files : FileSystem
  exitCode : Nat
  output : Text := []
  errors : Text := []
  abnormal : Option Fault := none
  reports : List LogEntry := []

def usageLine : Text := "Usage: cli [OPTIONS] PROJECT_PATH\n"

def helpText : Text :=
  usageLine ++
    "\n  Inline templateUrl and styleUrls resources of every component under\n" ++
    "  PROJECT_PATH.\n\nOptions:\n" ++
    "  -c, --config PATH  Path to config file\n" ++
    "  -v, --verbose      Enable verbose output\n" ++
    "  --help             Show this message and exit.\n"

def usageText (fault : UsageFault) : Text :=
  let message := printed ("Error: " ++ fault.message ++ "\n")
  if fault.showsUsage then usageLine ++ "Try 'cli --help' for help.\n\n" ++ message else message

/-- Whether the command reports a fault of the run itself: a file that is not there, or a
value that is not usable. -/
def isReported : Fault → Bool
  | .resourceNotFound _ _ => true
  | .malformedPathList _ _ => true
  | .access .notFound _ => true
  | .access fault _ => fault.isRefusal
  | .decoding _ => true
  | .encoding _ => true
  | .namelessPath _ => true
  | .pattern .empty _ => true
  | .pattern .joinedStars _ => true
  | .config (.missingFile _) => true
  | .config (.notMapping _) => true
  | .config (.numeral _) => true
  | .config .undefinedInteger => true
  | .config .negativeConcurrency => true
  | .projectNotFound _ => true
  | _ => false

/-- The counts of a run, one on each line. -/
def summaryText (summary : RunSummary) : Text :=
  s!"Files scanned: {summary.total}\nFiles inlined: {summary.inlined}\n" ++
    s!"Files unchanged: {summary.unchanged}\nFiles failed: {summary.failures.length}\n"

/-- The failures of a run, one on each line. -/
def failuresText (summary : RunSummary) : Text :=
  summary.failures.flatMap fun (path, message) => "  " ++ path.text ++ ": " ++ message ++ "\n"

/-- Checks that a configuration file is there. A path that is refused is no usage fault and ends
the command abnormally. -/
def checkConfig (files : FileSystem) (path : Text) : Except (UsageFault ⊕ Fault) Unit :=
  match files.lookupText path with
  | .ok _ => .ok ()
  | .error fault =>
      .error (if fault.isRefusal then .inr (.access fault path) else .inl (.missingConfig path))

/-- Checks that a project is no file. -/
def checkProject (files : FileSystem) (path : Text) : Except (UsageFault ⊕ Fault) Unit :=
  match files.lookupText path with
  | .ok (.file _) => .error (.inl (.projectIsFile path))
  | .ok .directory => .ok ()
  | .error fault => if fault.isRefusal then .error (.inr (.access fault path)) else .ok ()

/-- What is checked before the command starts: the configuration file, the project, and that
no words are left. -/
def checkArguments (files : FileSystem) (arguments : Arguments) :
    Except (UsageFault ⊕ Fault) Text := do
  match arguments.config with
  | none => pure ()
  | some path => checkConfig files path
  match arguments.words with
  | [] => throw (.inl .missingProject)
  | project :: others => do
      checkProject files project
      if others = [] then return project else throw (.inl (.extraWords others))

def runConfigured (host : Host) (files : FileSystem) (config : Value)
    (sinks : List Sink) (project : Text) : CommandOutcome :=
  let taken (reports : List LogEntry) := reports.filter fun entry =>
    (sinks.head?.map fun sink => host.journal.takes sink entry).getD false
  let failed (files : FileSystem) (reports : List LogEntry) (fault : Fault) : CommandOutcome :=
    if isReported fault then
      { files, exitCode := 1, errors := printed ("Error: " ++ fault.message ++ "\n"),
        reports := taken reports }
    else { files, exitCode := 1, abnormal := some fault, reports := taken reports }
  match Config.inlineOptions config with
  | .error fault => failed files [] fault
  | .ok options =>
      let outcome :=
        Component.runProject ⟨options, files.workingDirectory, host⟩ files project
      match outcome.result with
      | .error fault => failed outcome.files outcome.reports fault
      | .ok summary =>
          { files := outcome.files
            exitCode := 0
            output := summaryText summary
            errors := printed (failuresText summary)
            reports := taken outcome.reports }

/-- Runs over a project whose configuration has still to be loaded. -/
def runLoaded (host : Host) (files : FileSystem) (environment : Environment)
    (arguments : Arguments) (project : Text) : CommandOutcome :=
  let refused (files : FileSystem) (fault : Fault) : CommandOutcome :=
    { files
      exitCode := 1
      errors := printed ("Error loading configuration: " ++ fault.message ++ "\n") }
  match Config.load host files environment arguments.config (some project) with
  | .error fault => refused files fault
  | .ok config =>
      match Logging.openSinks host.journal files config arguments.verbose with
      | (left, .error fault) => refused left fault
      | (left, .ok sinks) => runConfigured host left config sinks project

def run (host : Host) (files : FileSystem) (environment : Environment)
    (words : List Text) : CommandOutcome :=
  match Arguments.ofWords words with
  | .error fault => { files, exitCode := 2, errors := usageText fault }
  | .ok arguments =>
      if arguments.help then { files, exitCode := 0, output := helpText }
      else
        match checkArguments files arguments with
        | .error (.inl fault) => { files, exitCode := 2, errors := usageText fault }
        | .error (.inr fault) => { files, exitCode := 1, abnormal := some fault }
        | .ok project => runLoaded host files environment arguments project

end Inlay.Command
