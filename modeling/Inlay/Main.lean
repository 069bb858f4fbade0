import Inlay.Command.Run

/-!
# Running the command

The command on the files of this machine: what it may look at is taken into a file system
value, the command runs on that, and what it changed is written back.
-/

set_option autoImplicit false

namespace Inlay.Main

def partsOf (path : String) : Location := (Path.ofText path).parts

def nameOf (location : Location) : String :=
  (Path.mk .root location).text.shown

/-- Takes up a file or a directory with all that is in it. -/
partial def takeUp (files : FileSystem) (location : Location) : IO FileSystem := do
  let name := nameOf location
  let item : IO.FS.DirEntry :=
    ⟨nameOf location.dropLast, Text.shown (location.getLast?.getD ".")⟩
  if ← item.path.isDir then
    let mut taken := files.put location .directory
    for child in ← item.path.readDir do
      taken ← takeUp taken (location ++ [Text.ofString child.fileName])
    return taken
  else if ← item.path.pathExists then
    let content ← IO.FS.readBinFile name
    return files.put location (.file content.toList)
  else return files

def takeUpParents (files : FileSystem) (location : Location) : FileSystem :=
  (List.range location.length).foldl
    (fun files count =>
      let parent := location.take count
      if files.find? parent = none then files.put parent .directory else files)
    files

/-- Takes up what a written path leads to, and the package directories above it. -/
def takeUpPath (files : FileSystem) (path : Text) : IO FileSystem := do
  let location := ((Path.ofText path).absolute files.workingDirectory).parts
  let mut taken ← takeUp (takeUpParents files location) location
  for count in List.range location.length do
    let packages := location.take count ++ [Stylesheet.packageDirectory]
    if taken.find? packages = none then
      taken ← takeUp taken packages
  return taken

/-- The variables that the configuration files among some paths refer to. -/
def environmentFor (files : FileSystem) (paths : List Text) : IO Environment := do
  let mut environment : Environment := []
  for path in paths do
    match files.readText path with
    | .error _ => pure ()
    | .ok bytes =>
        let text := (Encoding.utf8.decode bytes).toOption.getD []
        for reference in tokensOf (VariableReference.scan.pieces text) do
          match ← IO.getEnv reference.name.shown with
          | some value => environment := (reference.name, value) :: environment
          | none => pure ()
  return environment

/-- Sources are passed on as they are once their imports are expanded: compiling them is the
work of another program. -/
def passOn (text : Text) : Except Text Text := .ok text

def writeBack (before after : FileSystem) : IO Unit := do
  for (location, entry) in after.entries do
    if before.find? location ≠ some entry then
      match entry with
      | .directory => IO.FS.createDirAll (nameOf location)
      | .file content => IO.FS.writeBinFile (nameOf location) (ByteArray.mk content.toArray)

/-- Runs the command with the given words and returns its exit code. -/
def run (words : List Text) : IO UInt32 := do
  let workingDirectory := partsOf (← IO.currentDir).toString
  let empty : FileSystem := ⟨[], workingDirectory⟩
  let mut files ← takeUpPath empty ['.']
  for word in words do
    if (files.lookupText word).toOption.isNone then
      files ← takeUpPath files word
  let configPaths := words ++ Config.fileNames ++
    words.flatMap fun word => Config.fileNames.map fun name =>
      ((Path.ofText word).child name).text
  let environment ← environmentFor files configPaths
  let started ← IO.monoMsNow
  let outcome := Command.run (.common passOn) files environment words
  writeBack files outcome.files
  let ended ← IO.monoMsNow
  let seconds := (Binary64.ofDecimal false (ended - started) (-3)).text
  for entry in outcome.reports do
    let message := (entry.text seconds).shown
    IO.eprintln s!"{entry.severity.name} | {entry.channel.name} | {message}"
  IO.print outcome.output.shown
  IO.eprint outcome.errors.shown
  match outcome.abnormal with
  | some fault => IO.eprintln fault.message.shown
  | none => pure ()
  return UInt32.ofNat outcome.exitCode

end Inlay.Main

def main (words : List String) : IO UInt32 := Inlay.Main.run (words.map Inlay.Text.ofString)
