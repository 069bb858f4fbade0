import Inlay.Discovery.Glob
import Inlay.Host

/-!
# Candidate files

The files of a project that are worked on: those that some pattern includes and none
excludes, each path once, in the order of their parts.
-/

set_option autoImplicit false

namespace Inlay.Discovery

/-- The parts in front of an excluding pattern that may also stand for nothing. -/
def anyDirectory : Text := "**/"

/-- Whether one pattern excludes a path below the project directory. -/
def excludedBy (relative pattern : Text) : Bool :=
  (Wildcard.ofText pattern).accepts relative ||
    match Text.after? anyDirectory pattern with
    | some rest => (Wildcard.ofText rest).accepts relative
    | none => false

/-- Whether some pattern excludes a path below the project directory. -/
def isExcluded (excludes : List Text) (relative : Text) : Bool :=
  excludes.any (excludedBy relative)

def relativeText (root path : Path) : Text :=
  (Path.mk .relative (path.parts.drop root.parts.length)).text

/-- The paths with one more, in the order of their parts and without repetition. -/
def insertPath (path : Path) : List Path → List Path
  | [] => [path]
  | next :: paths =>
      if path.parts < next.parts then path :: next :: paths
      else if next.parts < path.parts then next :: insertPath path paths
      else next :: paths

/-- The paths in the order of their parts, each once. -/
def inOrder (paths : List Path) : List Path := paths.foldr insertPath []

/-- Those of the paths that lead to regular files. A path that is too long for the question ends
the search. -/
def filesAmong (files : FileSystem) : List Path → Except Fault (List Path)
  | [] => .ok []
  | path :: paths =>
      match files.probeFile path, filesAmong files paths with
      | .error cause, _ => .error (.access cause path.text)
      | _, .error fault => .error fault
      | .ok isFile, .ok others => .ok (if isFile then path :: others else others)

/-- The files below a directory that one pattern leads to. -/
def searched (limits : Text → SearchLimits) (files : FileSystem) (root : Path) (pattern : Text) :
    Except Fault (List Path) :=
  match Glob.ofText (limits pattern).parts pattern with
  | .error cause => .error (.pattern cause pattern)
  | .ok glob =>
      match glob.paths files (limits pattern).levels root with
      | .error fault => .error fault
      | .ok paths => filesAmong files paths

/-- All the files that the including patterns lead to. The first pattern that is not usable, or
with which the search fails, ends it. -/
def included (limits : Text → SearchLimits) (files : FileSystem) (root : Path) :
    List Text → Except Fault (List Path)
  | [] => .ok []
  | pattern :: patterns =>
      match searched limits files root pattern, included limits files root patterns with
      | .error fault, _ => .error fault
      | _, .error fault => .error fault
      | .ok found, .ok others => .ok (found ++ others)

def candidates (limits : Text → SearchLimits) (files : FileSystem) (root : Path)
    (includes excludes : List Text) : Except Fault (List Path) :=
  match included limits files root includes with
  | .error fault => .error fault
  | .ok paths =>
      .ok (inOrder (paths.filter fun path => !isExcluded excludes (relativeText root path)))

end Inlay.Discovery
