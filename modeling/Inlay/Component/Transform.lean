import Inlay.Component.Inline

/-!
# Transforming source files

A source file is read, its references are inlined, and the result is written back in place if
it differs. Reading and inlining form an inquiry; the one change to the files comes after it.
-/

set_option autoImplicit false

namespace Inlay

/-- What became of a source file. -/
inductive FileStatus where
  | inlined
  | unchanged
  | failed (message : Text)
deriving Repr, DecidableEq

/-- A source file and what became of it. -/
structure FileResult where
  path : Path
  status : FileStatus
deriving Repr, DecidableEq

/-- What a run leaves behind: the files, what was reported, and the result. -/
structure Outcome (α : Type) where
  files : FileSystem
  reports : List LogEntry
  result : Except Fault α

namespace Component

/-- Reads and inlines a source file. There is no new text where nothing would change. -/
def inlineFile (setting : Setting) (path : Path) : Inquiry (Option Text) := do
  let content ← Inquiry.readExact setting.charset path
  let inlined ← inlineContent setting (setting.host.race path) (resolveFrom path) content
  return if inlined = content then none else some inlined

/-- Writes a source file. The file is emptied when it is opened, before its new text is
encoded. -/
def writeSource (files : FileSystem) (charset : Charset) (path : Path) (text : Text) :
    FileSystem × Except Fault Unit :=
  match files.write path [] with
  | .error fault => (files, .error (.access fault path.text))
  | .ok emptied =>
      match charset.encode text with
      | .error fault => (emptied, .error fault)
      | .ok bytes =>
          match files.write path bytes with
          | .error fault => (emptied, .error (.access fault path.text))
          | .ok written => (written, .ok ())

/-- Writes the new text of a source file, if there is one. -/
def commit (setting : Setting) (files : FileSystem) (path : Path) :
    Option Text → FileSystem × Except Fault FileStatus
  | none => (files, .ok .unchanged)
  | some text =>
      match writeSource files setting.charset path text with
      | (written, .ok ()) => (written, .ok .inlined)
      | (left, .error fault) => (left, .error fault)

def writtenEntry (path : Path) : LogEntry :=
  { severity := .debug
    channel := .inliner
    message := "Wrote inlined source " ++ path.text }

def failedEntry (path : Path) (fault : Fault) : LogEntry :=
  { severity := .error
    channel := .inliner
    message := "An error occurred while inlining " ++ path.text ++ ": " ++ fault.message }

def transformFile (setting : Setting) (files : FileSystem) (path : Path) : Outcome FileStatus :=
  let inquiry := inlineFile setting path
  match inquiry.result files with
  | .error fault => ⟨files, inquiry.reports files, .error fault⟩
  | .ok text =>
      let (left, status) := commit setting files path text
      match status with
      | .ok .inlined => ⟨left, inquiry.reports files ++ [writtenEntry path], status⟩
      | _ => ⟨left, inquiry.reports files, status⟩

end Component

end Inlay
