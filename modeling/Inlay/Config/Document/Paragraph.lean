import Inlay.Config.Document.Property

/-!
# Block scalars

Scalars that are indented lines under a header. The header tells whether line ends are kept or
folded, how deep the lines are indented, and what happens to the line ends behind the last line.
-/

set_option autoImplicit false

namespace Inlay.Document

/-- What happens to the line ends behind the last line of a block scalar: all but one are
dropped, all are dropped, or all are kept. -/
inductive Chomping where
  | clip
  | strip
  | keep
deriving Repr, DecidableEq

/-- The header of a block scalar. -/
structure ParagraphHeader where
  chomping : Chomping := .clip
  increment : Option Nat := none
deriving Repr, DecidableEq

def chomping? : Option CodePoint → Option Chomping
  | some (.char '+') => some .keep
  | some (.char '-') => some .strip
  | _ => none

/-- Reads the digit of an indentation, which is not zero. -/
def incrementDigit (start : Mark) (place : Place) : Except DocumentFault (Option Nat × Place) :=
  match place.here with
  | some (.char '0') => .error (.during .blockScalar start .zeroIndentation place.mark)
  | some c => if c.isDigit then .ok (some (asciiValue [c]), place.next) else .ok (none, place)
  | none => .ok (none, place)

/-- Reads the indicators of a header: a sign and a digit in any order, each of which may be
missing. -/
def headerIndicators (start : Mark) (place : Place) :
    Except DocumentFault (ParagraphHeader × Place) := do
  let (header, behind) ←
    match chomping? place.here with
    | some chomping => do
        let (increment, behind) ← incrementDigit start place.next
        pure (⟨chomping, increment⟩, behind)
    | none => do
        let (increment, behind) ← incrementDigit start place
        match increment, chomping? behind.here with
        | some _, some chomping => pure (⟨chomping, increment⟩, behind.next)
        | _, _ => pure (⟨.clip, increment⟩, behind)
  if isSpaceOrEnd behind.here then return (header, behind)
  else throw (.during .blockScalar start (.unexpected .scalarIndicators behind.here) behind.mark)

/-- Passes over blank lines in front of the first line, of which there are at most so many
characters: their line ends, the deepest column that was reached, and the place behind them. -/
def leadingLines : Nat → Nat → Place → Text × Nat × Place
  | 0, deepest, place => ([], deepest, place)
  | bound + 1, deepest, place =>
      if place.here = some ' ' then
        leadingLines bound (max deepest place.next.column) place.next
      else
        let (lineEnd, behind) := place.lineEnd
        if lineEnd = [] then ([], deepest, place)
        else
          let (more, result) := leadingLines bound deepest behind
          (lineEnd ++ more, result)

def indentTo : Nat → Place → Place
  | 0, place => place
  | missing + 1, place => if place.here = some ' ' then indentTo missing place.next else place

/-- Passes over blank lines, of which there are at most so many, and the indentation of the
line behind them. -/
def innerLines (indent : Nat) : Nat → Place → Text × Place
  | 0, place => ([], place)
  | bound + 1, place =>
      let inner := indentTo (indent - place.column) place
      let (lineEnd, behind) := inner.lineEnd
      if lineEnd = [] then ([], inner)
      else
        let (more, last) := innerLines indent bound behind
        (lineEnd ++ more, last)

def goesOn (indent : Nat) (place : Place) : Bool := place.column == indent && place.here.isSome

/-- What stands between two lines of a block scalar. A line feed between lines that do not
start with a space is folded when that is asked for. -/
def lineJoint (isFolded startsFull nextFull : Bool) (lineEnd blank : Text) : Text :=
  if isFolded && startsFull && nextFull && lineEnd == "\n" then
    if blank = [] then [' '] else []
  else lineEnd

/-- Whether a line starts with something else than a space or a tab. -/
def startsFull (place : Place) : Bool := !(place.here.map isSpaceOrTab).getD false

/-- Reads the lines of a block scalar, of which there are at most so many, behind the blank
lines that were read before: the text, the last line end, the blank lines behind it, and the
place behind those. -/
def paragraphLines (isFolded : Bool) (indent : Nat) :
    Nat → Text → Place → Text × Text × Text × Place
  | 0, blank, place => ([], [], blank, place)
  | bound + 1, blank, place =>
      if goesOn indent place then
        let line := place.run fun c => !endsLine c
        let (lineEnd, nextLine) := (place.advance line.length).lineEnd
        let (inner, next) := innerLines indent place.rest.length nextLine
        if goesOn indent next then
          let joint := lineJoint isFolded (startsFull place) (startsFull next) lineEnd inner
          let (more, result) := paragraphLines isFolded indent bound inner next
          (blank ++ line ++ joint ++ more, result)
        else (blank ++ line, lineEnd, inner, next)
      else ([], [], blank, place)

def paragraph (isFolded : Bool) (column : Int) (place : Place) :
    Except DocumentFault (Text × Place) := do
  let (header, behind) ← headerIndicators place.mark place.next
  let first ← restOfLine .blockScalar place.mark behind
  let least := (max (column + 1) 1).toNat
  let (blank, indent, lines) :=
    match header.increment with
    | some increment =>
        let indent := least + increment - 1
        let (blank, lines) := innerLines indent place.rest.length first
        (blank, indent, lines)
    | none =>
        let (blank, deepest, lines) := leadingLines place.rest.length 0 first
        (blank, max least deepest, lines)
  let (text, lineEnd, trailing, last) :=
    paragraphLines isFolded indent place.rest.length blank lines
  match header.chomping with
  | .strip => return (text, last)
  | .clip => return (text ++ lineEnd, last)
  | .keep => return (text ++ lineEnd ++ trailing, last)

end Inlay.Document
