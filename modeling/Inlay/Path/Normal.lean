import Inlay.Path.Basic

/-!
# Normal paths

Double dots are removed without looking at any file: each takes away the part before it. At
the root there is nothing above; a relative path keeps the double dots at its front.
-/

set_option autoImplicit false

namespace Inlay

/-- The stack of parts, last one first, after one more part. -/
def pushPart (anchored : Bool) (stack : List Text) (part : Text) : List Text :=
  if part = parentPart then
    match stack with
    | [] => if anchored then [] else [parentPart]
    | top :: below => if top = parentPart then part :: stack else below
  else part :: stack

def normalParts (anchored : Bool) (parts : List Text) : List Text :=
  (parts.foldl (pushPart anchored) []).reverse

namespace Path

def isAnchored (path : Path) : Bool := path.anchor != .relative

def normal (path : Path) : Path := ⟨path.anchor, normalParts path.isAnchored path.parts⟩

/-- The absolute form of a path: seen from the working directory, from the root, without
double dots. -/
def absolute (workingDirectory : List Text) (path : Path) : Path :=
  let parts := if path.isAnchored then path.parts else workingDirectory ++ path.parts
  ⟨.root, normalParts true parts⟩

/-- The directories from the one given up to the root, nearest first. -/
def selfAndAncestors (path : Path) : List Path :=
  (List.range (path.parts.length + 1)).map fun count =>
    ⟨path.anchor, path.parts.take (path.parts.length - count)⟩

end Path

/-- A reference as seen from a directory. No file is consulted. -/
def resolveReference (directory : Path) (reference : Text) : Path :=
  (directory.join (Path.ofText reference)).normal

def resolveFrom (file : Path) (reference : Text) : Path := resolveReference file.parent reference

end Inlay
