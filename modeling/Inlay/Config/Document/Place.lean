import Inlay.Text.Basic

/-!
# Places

A place in a configuration document: the text from there on, and how much of the document is
in front of it. Lines and columns decide how a document nests.
-/

set_option autoImplicit false

namespace Inlay.Document

/-- A line and a column, both counted from zero. -/
structure Mark where
  line : Nat
  column : Nat
deriving Repr, DecidableEq

/-- A place in a document. -/
structure Place where
  rest : Text
  index : Nat
  line : Nat
  column : Nat
deriving Repr, DecidableEq

def endsLine (c : CodePoint) : Bool := c == '\n' || c == '\x85' || c == '\u2028' || c == '\u2029'

def isLineEnd : Option CodePoint → Bool
  | none => true
  | some c => endsLine c

/-- A space, or the end of a line. -/
def isSpaceOrEnd (c : Option CodePoint) : Bool := c == some ' ' || isLineEnd c

/-- A space or a tab, or the end of a line. -/
def isGap (c : Option CodePoint) : Bool := c == some '\t' || isSpaceOrEnd c

def isSpaceOrTab (c : CodePoint) : Bool := c == ' ' || c == '\t'

def startMark : Text := "---"

def endMark : Text := "..."

namespace Place

def start (text : Text) : Place := ⟨text, 0, 0, 0⟩

def mark (place : Place) : Mark := ⟨place.line, place.column⟩

def here (place : Place) : Option CodePoint := place.rest.head?

/-- The character so many places further on. -/
def ahead (place : Place) (count : Nat) : Option CodePoint := place.rest[count]?

/-- The place behind a character in front of the given text. A byte order mark takes no
column. -/
def past (place : Place) (c : CodePoint) (rest : Text) : Place :=
  if endsLine c then ⟨rest, place.index + 1, place.line + 1, 0⟩
  else if c == '\ufeff' then { place with rest, index := place.index + 1 }
  else { place with rest, index := place.index + 1, column := place.column + 1 }

/-- The next place. At the end of the document there is no other. -/
def next (place : Place) : Place :=
  match place.rest with
  | [] => place
  | c :: rest => place.past c rest

/-- The place so many characters further on. -/
def advance : Nat → Place → Place
  | 0, place => place
  | count + 1, place => advance count place.next

def run (place : Place) (kind : CodePoint → Bool) : Text := place.rest.takeWhile kind

def pastRun (place : Place) (kind : CodePoint → Bool) : Place :=
  place.advance (place.run kind).length

def pastSpaces (place : Place) : Place := place.pastRun (· == ' ')

/-- The place at the end of a line that may hold a comment behind spaces. -/
def pastComment (place : Place) : Place :=
  let behind := place.pastSpaces
  if behind.here = some '#' then behind.pastRun fun c => !endsLine c else behind

/-- Whether a mark of three characters stands here, and nothing more in the word. -/
def isAtMark (place : Place) (mark : Text) : Bool :=
  match Text.after? mark place.rest with
  | some rest => isGap rest.head?
  | none => false

/-- Whether one document ends here and another one may begin. -/
def isAtBoundary (place : Place) : Bool := place.isAtMark startMark || place.isAtMark endMark

/-- The end of a line as it counts inside a scalar: as a plain line feed, or, where the
character asks for it, as itself. -/
def lineEndText (c : CodePoint) : Text := if c == '\u2028' || c == '\u2029' then [c] else ['\n']

/-- The line end at a place, as it counts, and the place behind it. Elsewhere it is empty. -/
def lineEnd (place : Place) : Text × Place :=
  match place.rest with
  | [] => ([], place)
  | c :: rest => if endsLine c then (lineEndText c, place.past c rest) else ([], place)

end Place

/-- A line end and the blank lines behind it, as they count between two lines of a scalar: a
single line feed joins the lines with a space. -/
def foldedLines (lineEnd : Text) (blank : Text) : Text :=
  if lineEnd ≠ "\n" then lineEnd ++ blank else if blank = [] then [' '] else blank

end Inlay.Document
