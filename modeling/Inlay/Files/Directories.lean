import Inlay.Files.Basic

/-!
# Making directories

A directory is made together with the directories above it that are missing.
-/

set_option autoImplicit false

namespace Inlay.FileSystem

/-- A path that could not be made a directory, and why. -/
abbrev DirectoryFault := AccessFault × Path

/-- Makes a directory at a path unless there is one. A missing directory above it is not
made. -/
def ensureDirectory (files : FileSystem) (path : Path) : FileSystem × Except DirectoryFault Unit :=
  match files.makeDirectory path with
  | .ok made => (made, .ok ())
  | .error fault =>
      if fault ≠ .notFound ∧ files.isDirectory path then (files, .ok ())
      else (files, .error (fault, path))

/-- Makes a directory at a path and so many missing directories above it. What was made stays
even if a later step fails. -/
def ensureWithin : Nat → FileSystem → Path → FileSystem × Except DirectoryFault Unit
  | 0, files, path => ensureDirectory files path
  | levels + 1, files, path =>
      match files.makeDirectory path with
      | .error .notFound =>
          if path.parts = [] then (files, .error (.notFound, path))
          else
            match ensureWithin levels files path.parent with
            | (made, .ok ()) => ensureDirectory made path
            | failed => failed
      | _ => ensureDirectory files path

/-- Makes a directory at a path and all missing directories above it. -/
def ensureDirectories (files : FileSystem) (path : Path) :
    FileSystem × Except DirectoryFault Unit :=
  ensureWithin (path.parts.length + 1) files path

end Inlay.FileSystem
