import Inlay.Discovery.Wildcard
import Inlay.Fault

/-!
# Globs

Patterns for files below a directory, one step for each part of a path. Two stars stand for
any number of directories; other wildcards match one name; a name without wildcards has to be
there.
-/

set_option autoImplicit false

namespace Inlay

/-- A step of a glob. -/
inductive GlobStep where
  | anyDepth
  | matching (pattern : Wildcard)
  | named (name : Text)
  | inside
deriving Repr, DecidableEq

abbrev Glob := List GlobStep

namespace GlobStep

def hasWildcards (part : Text) : Bool :=
  part.contains '*' || part.contains '?' || part.contains '['

/-- The step that a part of a pattern stands for. The empty part, which a slash at the end
makes, stays inside the directory. -/
def ofPart (part : Text) : Except PatternCause GlobStep :=
  if part = [] then .ok .inside
  else if part = "**" then .ok .anyDepth
  else if Text.hasPart "**" part then .error .joinedStars
  else if hasWildcards part then .ok (.matching (Wildcard.ofText part))
  else .ok (.named part)

/-- The steps that the parts of a pattern stand for, up to a number of parts. -/
def ofParts : Nat → List Text → Except PatternCause Glob
  | _, [] => .ok []
  | 0, _ :: _ => .error .tooManyParts
  | limit + 1, part :: parts =>
      match ofPart part, ofParts limit parts with
      | .ok step, .ok steps => .ok (step :: steps)
      | .error cause, _ => .error cause
      | _, .error cause => .error cause

end GlobStep

namespace Glob

/-- The parts of a pattern. A slash at the end makes one that is empty. -/
def partsOf (text : Text) : List Text :=
  let parts := (Path.ofText text).parts
  if text.getLast? = some (.char '/') then parts ++ [[]] else parts

def ofText (limit : Nat) (text : Text) : Except PatternCause Glob :=
  let path := Path.ofText text
  if text = [] then .error .empty
  else if path.isAnchored then .error .anchored
  else if path.parts = [] then
    if text.getLast? = some (.char '/') then .error .onlySlash else .error .withoutParts
  else GlobStep.ofParts limit (partsOf text)

/-- A directory and all the directories below it, as paths that lead to them. -/
def directoriesFrom (files : FileSystem) (path : Path) : List Path :=
  match files.locate path with
  | .error _ => [path]
  | .ok location =>
      path :: files.entries.filterMap fun (other, entry) =>
        if entry = .directory ∧ location.isPrefixOf other ∧ location.length < other.length then
          some ⟨path.anchor, path.parts ++ other.drop location.length⟩
        else none

/-- What is found from a directory on the way down, so many directories deep. Behind that the
directory is listed for those below it. -/
def onTheWay (files : FileSystem) (levels depth : Nat) (directory : Path)
    (found : Except Fault (List Path)) : Except Fault (List Path) :=
  if levels ≤ depth then .error (.searchTooDeep directory.text)
  else
    match found, files.list directory with
    | .error fault, _ => .error fault
    | _, .error cause => .error (.access cause directory.text)
    | .ok paths, .ok _ => .ok paths

/-- The paths that the steps of a glob lead to from a directory. Before the last step only
directories are followed. A path that is too long to ask for, or to list, ends the search, and so
does a search that is deeper than the given levels. Which of several such faults is told depends on
the order in which directories are listed. -/
def select (files : FileSystem) : Glob → Nat → Path → Except Fault (List Path)
  | _, 0, path => .error (.searchTooDeep path.text)
  | [], _ + 1, path => .ok [path]
  | .inside :: _, _ + 1, path => .ok [path]
  | .named name :: steps, levels + 1, path =>
      let next := path.child name
      match files.look next with
      | .error cause => .error (.access cause next.text)
      | .ok found =>
          if (if steps.isEmpty then found.isSome else found == some .directory) then
            select files steps levels next
          else .ok []
  | .matching pattern :: steps, levels + 1, path =>
      match files.list path with
      | .error cause => .error (.access cause path.text)
      | .ok listed =>
          let followed := listed.filter fun (name, entry) =>
            pattern.accepts name && (steps.isEmpty || entry == .directory)
          (allOf (followed.map fun (name, _) =>
            select files steps levels (path.child name))).map List.flatten
  | .anyDepth :: steps, levels + 1, path =>
      (allOf ((directoriesFrom files path).map fun directory =>
        onTheWay files levels (directory.parts.length - path.parts.length) directory
          (select files steps levels directory))).map List.flatten

/-- The paths below a directory that a glob leads to. Where no directory is, there are none. -/
def paths (files : FileSystem) (glob : Glob) (levels : Nat) (directory : Path) :
    Except Fault (List Path) :=
  match files.look directory with
  | .error cause => .error (.access cause directory.text)
  | .ok (some .directory) => select files glob levels directory
  | .ok _ => .ok []

end Glob

end Inlay
