import Inlay.Config.Document.Place

/-!
# Plain scalars in a document

Scalars without quotes: words with single gaps between them, which may go on over several
lines. They end in front of whatever could be something else.
-/

set_option autoImplicit false

namespace Inlay.Document

def isFlowMark (c : CodePoint) : Bool :=
  c == ',' || c == '[' || c == ']' || c == '\x7b' || c == '\x7d'

/-- Whether a plain scalar ends in front of a character, given the next one. -/
def endsPlain (inFlow : Bool) (c : CodePoint) (after : Option CodePoint) : Bool :=
  isGap (some c) ||
    (c == ':' && (isGap after || (inFlow && (after.map isFlowMark).getD false))) ||
    (inFlow && (isFlowMark c || c == '?'))

def plainWord (inFlow : Bool) : Text → Text
  | [] => []
  | c :: rest => if endsPlain inFlow c rest.head? then [] else c :: plainWord inFlow rest

/-- Whether a plain scalar may start at a place. -/
def startsPlain (inFlow : Bool) (place : Place) : Bool :=
  match place.rest with
  | [] => false
  | c :: rest =>
      let reserved : Text := "-?:,[]\x7b\x7d#&*!|>'\"%@\x60"
      !isGap (some c) && (!reserved.contains c ||
        (!isGap rest.head? && (c == '-' || (!inFlow && (c == '?' || c == ':')))))

/-- What stands between two words: how it counts, whether it has a line end, and the place
behind it. It counts as nothing where a document begins or ends. -/
structure PlainGap where
  text : Text
  hasLineEnd : Bool
  behind : Place
deriving Repr, DecidableEq

/-- Passes over blank lines behind a line end, of which there are at most so many. There is no
text if a document begins or ends in between. -/
def plainBlankLines : Nat → Place → Option Text × Place
  | 0, place => (some [], place)
  | bound + 1, place =>
      if place.isAtBoundary then (none, place)
      else
        let inner := place.pastSpaces
        let (lineEnd, behind) := inner.lineEnd
        if lineEnd = [] then (some [], inner)
        else
          let (more, last) := plainBlankLines bound behind
          (more.map (lineEnd ++ ·), last)

def plainGap (place : Place) : PlainGap :=
  let behind := place.pastSpaces
  let (lineEnd, nextLine) := behind.lineEnd
  if lineEnd = [] then ⟨place.run (· == ' '), false, behind⟩
  else
    match plainBlankLines place.rest.length nextLine with
    | (none, last) => ⟨[], true, last⟩
    | (some blank, last) => ⟨foldedLines lineEnd blank, true, last⟩

/-- A plain scalar as far as it was read: its words and gaps, last first, the mark behind its
last word, and the gap behind that. -/
structure PlainScalar where
  chunks : List Text
  stop : Mark
  gap : PlainGap
deriving Repr, DecidableEq

def PlainScalar.text (scalar : PlainScalar) : Text := scalar.chunks.reverse.flatten

/-- Reads the words of a plain scalar, of which there are at most so many. Outside of brackets
its lines have to be indented by more than the given column. -/
def plainWords (inFlow : Bool) (indent : Int) : Nat → PlainScalar → PlainScalar
  | 0, scalar => scalar
  | bound + 1, scalar =>
      let place := scalar.gap.behind
      let word := plainWord inFlow place.rest
      if place.here = some '#' ∨ word = [] then scalar
      else
        let behind := place.advance word.length
        let gap := plainGap behind
        let longer : PlainScalar :=
          { chunks := word :: scalar.gap.text :: scalar.chunks, stop := behind.mark, gap }
        if gap.text = [] ∨ gap.behind.here = some '#' ∨
            (!inFlow ∧ (gap.behind.column : Int) ≤ indent) then longer
        else plainWords inFlow indent bound longer

def plainScalar (inFlow : Bool) (indent : Int) (place : Place) : PlainScalar :=
  plainWords inFlow indent place.rest.length ⟨[], place.mark, ⟨[], false, place⟩⟩

end Inlay.Document
