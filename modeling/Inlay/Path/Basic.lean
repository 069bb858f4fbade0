import Inlay.Text.Basic

/-!
# Paths

A path is an anchor and a list of parts. Empty parts and single dots do not occur among the
parts; double dots stay until a path is normalised.
-/

set_option autoImplicit false

namespace Inlay

/-- Where a path starts: at the working directory, at the root, or at the root written with
exactly two slashes, which is kept apart. -/
inductive Anchor where
  | relative
  | root
  | doubleRoot
deriving Repr, DecidableEq

/-- A path by its anchor and its parts. -/
structure Path where
  anchor : Anchor
  parts : List Text
deriving Repr, DecidableEq

namespace Anchor

def ofText : Text → Anchor
  | .char '/' :: .char '/' :: .char '/' :: _ => .root
  | .char '/' :: .char '/' :: _ => .doubleRoot
  | .char '/' :: _ => .root
  | _ => .relative

def text : Anchor → Text
  | .relative => []
  | .root => ['/']
  | .doubleRoot => ['/', '/']

end Anchor

def parentPart : Text := ['.', '.']

namespace Path

/-- The path that a text writes. Repeated slashes, a slash at the end and parts that are a
single dot leave no trace. -/
def ofText (text : Text) : Path where
  anchor := Anchor.ofText text
  parts := (Text.splitOn '/' text).filter fun part => !(part.isEmpty || part == ".")

/-- How a path is written; the empty relative path is a single dot. -/
def text (path : Path) : Text :=
  if path.anchor = .relative ∧ path.parts = [] then ['.']
  else path.anchor.text ++ Text.joinWith ['/'] path.parts

def join (base path : Path) : Path :=
  if path.anchor = .relative then ⟨base.anchor, base.parts ++ path.parts⟩ else path

def child (path : Path) (part : Text) : Path := ⟨path.anchor, path.parts ++ [part]⟩

def parent (path : Path) : Path := ⟨path.anchor, path.parts.dropLast⟩

/-- The last part, or nothing for a path without parts. -/
def name (path : Path) : Text := path.parts.getLast?.getD []

/-- The last dot of a name and what follows it, if neither the part before the dot nor the
part behind it is empty. -/
def suffix (path : Path) : Text :=
  let name := path.name
  let tail := (name.reverse.takeWhile (· != ('.' : CodePoint))).reverse
  if tail.length + 1 < name.length && !tail.isEmpty then "." ++ tail else []

/-- The path with `extension` appended to its last part; a path without parts has none. -/
def appendToName? (extension : Text) (path : Path) : Option Path :=
  if path.parts = [] then none else some (path.parent.child (path.name ++ extension))

end Path

end Inlay
