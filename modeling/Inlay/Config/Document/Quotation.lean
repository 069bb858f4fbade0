import Inlay.Config.Document.Property

/-!
# Quoted scalars

Scalars between quotes, which may go on over several lines. Between double quotes a backslash
introduces a character by its letter or its code; between single quotes only the quote itself is
written in another way, twice.
-/

set_option autoImplicit false

namespace Inlay.Document

/-- Passes over blank lines, of which there are at most so many: their line ends as they count,
and the place of the first character that is no space or tab. No document may begin or end in
between. -/
def blankLines (start : Mark) : Nat → Place → Except DocumentFault (Text × Place)
  | 0, place => .ok ([], place)
  | bound + 1, place =>
      if place.isAtBoundary then
        .error (.during .quotedScalar start .documentBoundary place.mark)
      else
        let inner := place.pastRun isSpaceOrTab
        let (lineEnd, behind) := inner.lineEnd
        if lineEnd = [] then .ok ([], inner)
        else do
          let (more, last) ← blankLines start bound behind
          return (lineEnd ++ more, last)

def letterEscapes : List (CodePoint × CodePoint) :=
  [('0', '\x00'), ('a', '\x07'), ('b', '\x08'), ('t', '\t'), ('\t', '\t'), ('n', '\n'),
   ('v', '\x0b'), ('f', '\x0c'), ('r', '\r'), ('e', '\x1b'), (' ', ' '), ('"', '"'),
   ('\\', '\\'), ('/', '/'), ('N', '\x85'), ('_', '\xa0'), ('L', '\u2028'), ('P', '\u2029')]

def codeWidth? : CodePoint → Option Nat
  | .char 'x' => some 2
  | .char 'u' => some 4
  | .char 'U' => some 8
  | _ => none

/-- Reads a character by its code, which has a width. The halves of a character are not put
together. -/
def codeEscape (start : Mark) (width : Nat) (place : Place) :
    Except DocumentFault (CodePoint × Place) :=
  match hexCode width 0 place.rest with
  | .error found =>
      .error (.during .escapedScalar start (.unexpected (.hexCode width) found) place.mark)
  | .ok code =>
      if code < 0x110000 then .ok (.ofNat code, place.advance width)
      else .error (.noCharacter code)

/-- Reads what a backslash introduces, from the place behind it. A line end counts as nothing,
but the blank lines behind it count. -/
def escape (start : Mark) (place : Place) : Except DocumentFault (Text × Place) :=
  let unknown := DocumentFault.during .escapedScalar start (.unknownEscape place.here) place.mark
  match place.here with
  | none => .error unknown
  | some letter =>
      match letterEscapes.lookup letter, codeWidth? letter with
      | some c, _ => .ok ([c], place.next)
      | none, some width => do
          let (c, behind) ← codeEscape start width place.next
          return ([c], behind)
      | none, none =>
          if endsLine letter then blankLines start place.rest.length place.lineEnd.2
          else .error unknown

/-- Reads spaces inside a quoted scalar. At the end of a line they do not count, and the line
ends are folded. -/
def quotedGap (start : Mark) (place : Place) : Except DocumentFault (Text × Place) :=
  let behind := place.pastRun isSpaceOrTab
  let (lineEnd, nextLine) := behind.lineEnd
  if behind.here = none then .error (.during .quotedScalar start .unfinishedText behind.mark)
  else if lineEnd = [] then .ok (place.run isSpaceOrTab, behind)
  else do
    let (blank, last) ← blankLines start place.rest.length nextLine
    return (foldedLines lineEnd blank, last)

/-- Reads a quoted scalar up to behind its closing quote, with at most so many steps. -/
def quotedText (double : Bool) (start : Mark) :
    Nat → Place → Except DocumentFault (Text × Place)
  | 0, place => .error (.during .quotedScalar start .unfinishedText place.mark)
  | bound + 1, place =>
      match place.here with
      | none => .error (.during .quotedScalar start .unfinishedText place.mark)
      | some c =>
          if c = '\'' ∧ !double ∧ place.ahead 1 = some '\'' then do
            let (more, last) ← quotedText double start bound (place.advance 2)
            return (c :: more, last)
          else if c = if double then '"' else '\'' then .ok ([], place.next)
          else if c = '\\' ∧ double then do
            let (escaped, behind) ← escape start place.next
            let (more, last) ← quotedText double start bound behind
            return (escaped ++ more, last)
          else if isGap (some c) then do
            let (gap, behind) ← quotedGap start place
            let (more, last) ← quotedText double start bound behind
            return (gap ++ more, last)
          else do
            let (more, last) ← quotedText double start bound place.next
            return (c :: more, last)

def quotedScalar (place : Place) : Except DocumentFault (Text × Place) :=
  quotedText (place.here == some '"') place.mark place.rest.length place.next

end Inlay.Document
