import Inlay.Config.Document.Token
import Inlay.Encoding.Utf8

/-!
# Properties of nodes, and directives

What may stand in front of a node or of a document: the names by which nodes refer to each
other, tags, and instructions for the whole document.
-/

set_option autoImplicit false

namespace Inlay.Document

def isNameCharacter (c : CodePoint) : Bool := c.isAlphanum || c == '-' || c == '_'

def endsName (c : Option CodePoint) : Bool :=
  isGap c || (c.map fun c => ("?:,]\x7d%@\x60" : Text).contains c).getD false

def nodeName (activity : Activity) (place : Place) : Except DocumentFault (Text × Place) :=
  let start := place.next
  let name := start.run isNameCharacter
  let behind := start.advance name.length
  if name = [] then
    .error (.during activity place.mark (.unexpected .nameCharacter start.here) start.mark)
  else if endsName behind.here then .ok (name, behind)
  else .error (.during activity place.mark (.unexpected .nameCharacter behind.here) behind.mark)

/-! ## Addresses -/

def isAddressCharacter (c : CodePoint) : Bool :=
  c.isAlphanum || ("-;/?:@&=+$,_.!~*'()[]%" : Text).contains c

def hexDigit? (c : CodePoint) : Option Nat :=
  if c.isDigit then some (c.toNat - '0'.toNat)
  else if 'a' ≤ c ∧ c ≤ 'f' then some (c.toNat - 'a'.toNat + 10)
  else if 'A' ≤ c ∧ c ≤ 'F' then some (c.toNat - 'A'.toNat + 10)
  else none

/-- The number that so many hexadecimal digits write; if there are fewer, the character in
the place of the first one that is missing. -/
def hexCode : Nat → Nat → Text → Except (Option CodePoint) Nat
  | 0, value, _ => .ok value
  | _ + 1, _, [] => .error none
  | width + 1, value, c :: text =>
      match hexDigit? c with
      | some digit => hexCode width (16 * value + digit) text
      | none => .error (some c)

/-- Reads the bytes that are written as codes behind percent signs, of which there are at most
so many. -/
def addressBytes (activity : Activity) (start : Mark) :
    Nat → Place → Except DocumentFault (List UInt8 × Place)
  | 0, place => .ok ([], place)
  | bound + 1, place =>
      if place.here = some '%' then
        let digits := place.next
        match hexCode 2 0 digits.rest with
        | .error found =>
            .error (.during activity start (.unexpected .addressCode found) digits.mark)
        | .ok byte => do
            let (bytes, behind) ← addressBytes activity start bound (digits.advance 2)
            return (UInt8.ofNat byte :: bytes, behind)
      else .ok ([], place)

/-- Reads the characters of an address, of which there are at most so many. -/
def addressText (activity : Activity) (start : Mark) :
    Nat → Place → Except DocumentFault (Text × Place)
  | 0, place => .ok ([], place)
  | bound + 1, place =>
      match place.rest with
      | [] => .ok ([], place)
      | c :: _ =>
          if c = '%' then do
            let (bytes, behind) ← addressBytes activity start place.rest.length place
            match Utf8.decode bytes with
            | .error fault => .error (.during activity start (.undecodable fault) place.mark)
            | .ok text => do
                let (more, last) ← addressText activity start bound behind
                return (text ++ more, last)
          else if isAddressCharacter c then do
            let (more, last) ← addressText activity start bound place.next
            return (c :: more, last)
          else .ok ([], place)

/-- Reads an address, which is not empty. -/
def address (inside form : Activity) (start : Mark) (place : Place) :
    Except DocumentFault (Text × Place) := do
  let (text, behind) ← addressText inside start place.rest.length place
  if behind.index = place.index then
    .error (.during form start (.unexpected .address place.here) place.mark)
  else return (text, behind)

/-! ## Tags -/

/-- Reads the handle of a shorthand: a name between exclamation marks, or one such mark. -/
def tagHandle (activity : Activity) (start : Mark) (place : Place) :
    Except DocumentFault (Text × Place) :=
  if place.here ≠ some '!' then
    .error (.during activity start (.unexpected .exclamationMark place.here) place.mark)
  else
    let inner := place.next
    let name := inner.run isNameCharacter
    let behind := inner.advance name.length
    if inner.here = some ' ' then .ok (['!'], inner)
    else if behind.here = some '!' then .ok ("!" ++ name ++ "!", behind.next)
    else .error (.during activity start (.unexpected .exclamationMark behind.here) behind.mark)

/-- Reads a tag up to its end: an address between angles, an exclamation mark alone, or the
handle of a shorthand and what follows it. -/
def tagBody (place : Place) : Except DocumentFault ((Option Text × Text) × Place) :=
  let inner := place.next
  if inner.here = some '<' then do
    let (suffix, behind) ← address .tag .tagForm place.mark inner.next
    if behind.here = some '>' then return ((none, suffix), behind.next)
    else .error (.during .tagForm place.mark (.unexpected .closingAngle behind.here) behind.mark)
  else if isGap inner.here then return ((none, ['!']), inner)
  else if (inner.run fun c => !isSpaceOrEnd (some c)).contains '!' then do
    let (handle, behind) ← tagHandle .tag place.mark place
    let (suffix, last) ← address .tag .tagForm place.mark behind
    return ((some handle, suffix), last)
  else do
    let (suffix, last) ← address .tag .tagForm place.mark inner
    return ((some ['!'], suffix), last)

/-- Reads a tag, which has to end its word. -/
def tag (place : Place) : Except DocumentFault (Token × Place) := do
  let ((handle, suffix), behind) ← tagBody place
  if isSpaceOrEnd behind.here then return (.tag handle suffix, behind)
  else .error (.during .tag place.mark (.unexpected .space behind.here) behind.mark)

/-! ## Directives -/

def versionNumber (start : Mark) (place : Place) : Except DocumentFault (Nat × Place) :=
  let digits := place.run CodePoint.isDigit
  if digits = [] then
    .error (.during .directive start (.unexpected .digit place.here) place.mark)
  else .ok (asciiValue digits, place.advance digits.length)

def versionDirective (start : Mark) (place : Place) :
    Except DocumentFault (Directive × Place) := do
  let (major, point) ← versionNumber start place.pastSpaces
  if point.here ≠ some '.' then
    .error (.during .directive start (.unexpected .digitOrPoint point.here) point.mark)
  else
    let (minor, behind) ← versionNumber start point.next
    if isSpaceOrEnd behind.here then return (.version major minor, behind)
    else .error (.during .directive start (.unexpected .digitOrSpace behind.here) behind.mark)

def shorthandDirective (start : Mark) (place : Place) :
    Except DocumentFault (Directive × Place) := do
  let (handle, gap) ← tagHandle .directive start place.pastSpaces
  if gap.here ≠ some ' ' then
    .error (.during .directive start (.unexpected .space gap.here) gap.mark)
  else
    let (lead, behind) ← address .directive .directiveForm start gap.pastSpaces
    if isSpaceOrEnd behind.here then return (.shorthand handle lead, behind)
    else .error (.during .directive start (.unexpected .space behind.here) behind.mark)

def directiveBody (start : Mark) (name : Text) (place : Place) :
    Except DocumentFault (Directive × Place) :=
  if name = "YAML" then versionDirective start place
  else if name = "TAG" then shorthandDirective start place
  else .ok (.other, place.pastRun fun c => !endsLine c)

/-- Passes over the rest of a line, which may hold nothing but a comment. -/
def restOfLine (activity : Activity) (start : Mark) (place : Place) : Except DocumentFault Place :=
  let behind := place.pastComment
  if isLineEnd behind.here then .ok behind.lineEnd.2
  else .error (.during activity start (.unexpected .lineEnd behind.here) behind.mark)

def directive (place : Place) : Except DocumentFault (Directive × Place) := do
  let start := place.next
  let name := start.run isNameCharacter
  let behind := start.advance name.length
  if name = [] then
    throw (.during .directive place.mark (.unexpected .nameCharacter start.here) start.mark)
  if !isSpaceOrEnd behind.here then
    throw (.during .directive place.mark (.unexpected .nameCharacter behind.here) behind.mark)
  let (directive, last) ← directiveBody place.mark name behind
  let next ← restOfLine .directive place.mark last
  return (directive, next)

end Inlay.Document
