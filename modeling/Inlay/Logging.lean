import Inlay.Config.Options
import Inlay.Files.Directories

/-!
# Where reports go

The sinks that a configuration asks for: the standard error stream always, and a file if one
is named, whose directory is made. Each one is opened as soon as its settings are known.
-/

set_option autoImplicit false

namespace Inlay

namespace Logging

def streamLayout : String :=
  "<green>\x7btime:YYYY-MM-DD HH:mm:ss\x7d</green> | <level>\x7blevel: <8\x7d</level> | " ++
    "<cyan>\x7bname\x7d</cyan> | \x7bmessage\x7d"

def fileLayout : String :=
  "\x7btime:YYYY-MM-DD HH:mm:ss\x7d | \x7blevel: <8\x7d | \x7bname\x7d | \x7bmessage\x7d"

/-- The level that a configuration sets. Asking for every detail overrides it. -/
def configuredLevel (verbose : Bool) (logging : Value) : Except Fault Value :=
  if verbose then .ok (.text "DEBUG")
  else Config.setting "level" (.text "INFO") logging

def makeLogDirectory (files : FileSystem) (directory : Path) : FileSystem × Except Fault Unit :=
  match files.ensureDirectories directory with
  | (left, .error (fault, path)) => (left, .error (.access fault path.text))
  | (left, .ok ()) => (left, .ok ())

def fileSink (logging level : Value) (path : Text) : Except Fault Sink := do
  let rotation ← Config.setting "rotation" (.text "1 week") logging
  let retention ← Config.setting "retention" (.text "1 month") logging
  return {
    target := .file path
    level := level
    layout := fileLayout
    rotation := some rotation
    retention := some retention }

/-- Opens a sink. A refusal is a fault of the configuration. -/
def openSink (journal : Journal) (files : FileSystem) (sink : Sink) :
    FileSystem × Except Fault Unit :=
  match journal.opens files sink with
  | (left, .ok ()) => (left, .ok ())
  | (left, .error refusal) => (left, .error (.config (.sink refusal)))

/-- Opens the sink for a log file, whose directory is made first. -/
def openFile (journal : Journal) (files : FileSystem) (logging level file : Value) :
    FileSystem × Except Fault Sink :=
  match file with
  | .text path =>
      match makeLogDirectory files (Path.ofText path).parent with
      | (left, .error fault) => (left, .error fault)
      | (left, .ok ()) =>
          match fileSink logging level path with
          | .error fault => (left, .error fault)
          | .ok sink =>
              match openSink journal left sink with
              | (left, .ok ()) => (left, .ok sink)
              | (left, .error fault) => (left, .error fault)
  | .bytes _ => (files, .error (.config .bytesPath))
  | value => (files, .error (.config (.notPath value.shortKind)))

/-- The settings for reports that have to be there before any sink is opened: the section, the
level, and the file, if one is named. -/
def sinkSettings (config : Value) (verbose : Bool) : Except Fault (Value × Value × Value) := do
  let logging := Config.sectionOf "logging" (← Config.fieldsOf config)
  let level ← configuredLevel verbose logging
  let file ← Config.setting "file" .null logging
  return (logging, level, file)

def openSinks (journal : Journal) (files : FileSystem) (config : Value) (verbose : Bool) :
    FileSystem × Except Fault (List Sink) :=
  match sinkSettings config verbose with
  | .error fault => (files, .error fault)
  | .ok (logging, level, file) =>
      let stream : Sink := { target := .standardError, level := level, layout := streamLayout }
      match openSink journal files stream with
      | (left, .error fault) => (left, .error fault)
      | (left, .ok ()) =>
          if file.isVoid then (left, .ok [stream])
          else
            match openFile journal left logging level file with
            | (left, .ok sink) => (left, .ok [stream, sink])
            | (left, .error fault) => (left, .error fault)

end Logging

end Inlay
