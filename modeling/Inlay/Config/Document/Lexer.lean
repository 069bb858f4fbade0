import Inlay.Config.Document.Paragraph
import Inlay.Config.Document.Plain
import Inlay.Config.Document.Quotation
import Inlay.Config.Document.Supply

/-!
# Tokens of a text

Outside of brackets a column to the right of a block begins a block inside it, and a column to
the left ends blocks. A name is only known for one when the colon behind it is met: until then
its token is held back, because the tokens that begin a name go in front of it.
-/

set_option autoImplicit false

namespace Inlay.Document

/-- A token that turns out to begin a name if a colon follows: the number of brackets around
it, its number among all tokens, whether nothing else can stand there, and its place. -/
structure PossibleKey where
  depth : Nat
  number : Nat
  isRequired : Bool
  place : Place
deriving Repr, DecidableEq

/-- How far a text was read: the place, what is met at the end of the text if it breaks off
there, the number of open brackets, the columns of the open blocks, whether a name may start
here, the possible names, and the tokens that are held back behind the ones that were given
away. -/
structure Lexer where
  place : Place
  fault : Option DocumentFault := none
  depth : Nat := 0
  indent : Int := -1
  outer : List Int := []
  mayStartKey : Bool := true
  keys : List PossibleKey := []
  given : Nat := 0
  held : List Lexeme := []

namespace Lexer

def inFlow (lexer : Lexer) : Bool := lexer.depth != 0

def mark (lexer : Lexer) : Mark := lexer.place.mark

def add (token : Token) (start stop : Mark) (lexer : Lexer) : Lexer :=
  { lexer with held := lexer.held ++ [⟨token, start, stop⟩] }

/-- Adds a token that is so many characters long, and passes over it. -/
def take (token : Token) (length : Nat) (lexer : Lexer) : Lexer :=
  let behind := lexer.place.advance length
  { lexer.add token lexer.mark behind.mark with place := behind }

def finish (token : Token) (behind : Place) (lexer : Lexer) : Lexer :=
  { lexer.add token lexer.mark behind.mark with place := behind }

/-! ## Possible names -/

/-- The longest name, in characters. -/
def longestKey : Nat := 1024

/-- Whether no colon can follow any more: a name ends on its line and is not too long. -/
def PossibleKey.isStale (place : Place) (key : PossibleKey) : Bool :=
  key.place.line != place.line || place.index - key.place.index > longestKey

def missingColon (lexer : Lexer) (key : PossibleKey) : DocumentFault :=
  .during .simpleKey key.place.mark .missingColon lexer.mark

/-- Gives up possible names, none of which may be required. -/
def giveUp (lexer : Lexer) (isOver : PossibleKey → Bool) : Except DocumentFault Lexer :=
  match lexer.keys.find? fun key => isOver key && key.isRequired with
  | some key => .error (lexer.missingColon key)
  | none => .ok { lexer with keys := lexer.keys.filter fun key => !isOver key }

def giveUpStale (lexer : Lexer) : Except DocumentFault Lexer :=
  lexer.giveUp (PossibleKey.isStale lexer.place)

/-- Gives up the possible name inside the same brackets. -/
def giveUpHere (lexer : Lexer) : Except DocumentFault Lexer :=
  lexer.giveUp fun key => key.depth == lexer.depth

/-- Notes that the next token may begin a name, where one may start. At the column of the
block nothing else can stand. -/
def saveKey (lexer : Lexer) : Except DocumentFault Lexer :=
  if lexer.mayStartKey then do
    let isRequired := !lexer.inFlow && lexer.indent == lexer.place.column
    let lexer ← lexer.giveUpHere
    let key : PossibleKey :=
      ⟨lexer.depth, lexer.given + lexer.held.length, isRequired, lexer.place⟩
    return { lexer with keys := lexer.keys ++ [key] }
  else return lexer

/-! ## Blocks -/

/-- The blocks to the right of a column, innermost first, and the columns of the others. -/
def closedBlocks (column : Int) : Int → List Int → Nat × Int × List Int
  | indent, [] => (0, indent, [])
  | indent, other :: outer =>
      if indent > column then
        let (count, left) := closedBlocks column other outer
        (count + 1, left)
      else (0, indent, other :: outer)

/-- Ends the blocks to the right of a column. Between brackets no block ends. -/
def closeBlocks (column : Int) (lexer : Lexer) : Lexer :=
  if lexer.inFlow then lexer
  else
    let (count, indent, outer) := closedBlocks column lexer.indent lexer.outer
    let ends := List.replicate count ⟨.blockEnd, lexer.mark, lexer.mark⟩
    { lexer with indent, outer, held := lexer.held ++ ends }

def opensBlock (column : Nat) (lexer : Lexer) : Bool := lexer.indent < column

def openBlock (column : Nat) (lexer : Lexer) : Lexer :=
  { lexer with indent := column, outer := lexer.indent :: lexer.outer }

def openBlockHere (token : Token) (lexer : Lexer) : Lexer :=
  if !lexer.inFlow && lexer.opensBlock lexer.place.column then
    (lexer.openBlock lexer.place.column).add token lexer.mark lexer.mark
  else lexer

/-! ## Breaks -/

def isAtEnd (lexer : Lexer) : Bool := lexer.place.rest.isEmpty

/-- Whether all that is left may be a mark between documents. -/
def maySeparate (lexer : Lexer) : Bool :=
  lexer.place.column == 0 &&
    (lexer.place.rest.isPrefixOf startMark || lexer.place.rest.isPrefixOf endMark)

/-- The characters that alone do not tell which token they begin. -/
def ambiguous : List CodePoint := ['-', '?', ':', '%', '@', '\x60', '\t']

/-- Whether what is left does not tell which token begins here. At the start of a line three
characters are looked at where the first one may begin a mark between documents. -/
def isUntold (lexer : Lexer) : Bool :=
  lexer.maySeparate ||
    match lexer.place.rest with
    | [] => true
    | [c] => ambiguous.contains c || (lexer.inFlow && (c == '|' || c == '>'))
    | [c, _] => lexer.place.column == 0 && (c == '-' || c == '.')
    | _ => false

/-- Whether what is left does not tell that a plain scalar ends here. It may go on behind a
colon, and on a line whose first three characters are no mark between documents. -/
def isUnended (lexer : Lexer) : Bool :=
  lexer.maySeparate || (lexer.place.rest.drop (2 - lexer.place.column)).isEmpty ||
    lexer.place.rest = ":"

/-- Passes unless the text breaks off and does so here. -/
def passBreak (isHere : Lexer → Bool) (lexer : Lexer) : Except DocumentFault Lexer :=
  match lexer.fault with
  | some fault => if isHere lexer then .error fault else .ok lexer
  | none => .ok lexer

/-! ## Gaps -/

/-- The place behind spaces, comments and line ends, and whether there was a line end. The
first flag tells whether a comment goes on. -/
def pastGaps : Bool → Bool → Place → Text → Place × Bool
  | _, hadLineEnd, place, [] => (place, hadLineEnd)
  | inComment, hadLineEnd, place, c :: rest =>
      if endsLine c then pastGaps false true (place.past c rest) rest
      else if inComment || c == '#' then pastGaps true hadLineEnd (place.past c rest) rest
      else if c == ' ' then pastGaps false hadLineEnd (place.past c rest) rest
      else (place, hadLineEnd)

/-- Goes to the next token. A name may start on a new line. -/
def toToken (lexer : Lexer) : Lexer :=
  let start :=
    if lexer.place.index = 0 ∧ lexer.place.here = some '\ufeff' then lexer.place.next
    else lexer.place
  let (place, hadLineEnd) := pastGaps false false start start.rest
  { lexer with
    place
    mayStartKey := lexer.mayStartKey || (hadLineEnd && !lexer.inFlow) }

/-! ## Single tokens -/

def readEnd (lexer : Lexer) : Except DocumentFault Lexer := do
  let lexer ← (lexer.closeBlocks (-1)).giveUpHere
  return { lexer with mayStartKey := false, keys := [] }

def readDirective (lexer : Lexer) : Except DocumentFault Lexer := do
  let lexer ← (lexer.closeBlocks (-1)).giveUpHere
  let (directive, behind) ← directive lexer.place
  return { lexer.finish (.directive directive) behind with mayStartKey := false }

def readBoundary (token : Token) (lexer : Lexer) : Except DocumentFault Lexer := do
  let lexer ← (lexer.closeBlocks (-1)).giveUpHere
  return { lexer.take token 3 with mayStartKey := false }

/-- An opening bracket, which may begin a name. -/
def readOpening (token : Token) (lexer : Lexer) : Except DocumentFault Lexer := do
  let lexer ← lexer.saveKey
  return { lexer.take token 1 with depth := lexer.depth + 1, mayStartKey := true }

def readClosing (token : Token) (lexer : Lexer) : Except DocumentFault Lexer := do
  let lexer ← lexer.giveUpHere
  return { lexer.take token 1 with depth := lexer.depth - 1, mayStartKey := false }

def readFlowEntry (lexer : Lexer) : Except DocumentFault Lexer := do
  let lexer ← lexer.giveUpHere
  return { lexer.take .flowEntry 1 with mayStartKey := true }

def readBlockEntry (lexer : Lexer) : Except DocumentFault Lexer := do
  if !lexer.inFlow && !lexer.mayStartKey then throw (.plain .misplacedEntry lexer.mark)
  let lexer ← (lexer.openBlockHere .blockSequenceStart).giveUpHere
  return { lexer.take .blockEntry 1 with mayStartKey := true }

def readKey (lexer : Lexer) : Except DocumentFault Lexer := do
  if !lexer.inFlow && !lexer.mayStartKey then throw (.plain .misplacedKey lexer.mark)
  let lexer ← (lexer.openBlockHere .blockMappingStart).giveUpHere
  return { lexer.take .key 1 with mayStartKey := !lexer.inFlow }

def insertAt (number : Nat) (lexemes : List Lexeme) (lexer : Lexer) : Lexer :=
  let (before, behind) := lexer.held.splitAt (number - lexer.given)
  { lexer with held := before ++ lexemes ++ behind }

/-- The colon behind a possible name, which is now known to be one. -/
def readNamedValue (key : PossibleKey) (lexer : Lexer) : Lexer :=
  let mark := key.place.mark
  let opens := !lexer.inFlow && lexer.opensBlock key.place.column
  let lexer := if opens then lexer.openBlock key.place.column else lexer
  let start : List Lexeme := if opens then [⟨.blockMappingStart, mark, mark⟩] else []
  let lexer := lexer.insertAt key.number (start ++ [⟨.key, mark, mark⟩])
  { lexer.take .value 1 with
    keys := lexer.keys.filter fun other => other.depth != key.depth
    mayStartKey := false }

def readValue (lexer : Lexer) : Except DocumentFault Lexer := do
  match lexer.keys.find? fun key => key.depth == lexer.depth with
  | some key => return lexer.readNamedValue key
  | none =>
      if !lexer.inFlow && !lexer.mayStartKey then throw (.plain .misplacedValue lexer.mark)
      let lexer ← (lexer.openBlockHere .blockMappingStart).giveUpHere
      return { lexer.take .value 1 with mayStartKey := !lexer.inFlow }

/-- A token that may begin a name and is read by the given reader. -/
def readScalar (reader : Place → Except DocumentFault (Token × Place)) (lexer : Lexer) :
    Except DocumentFault Lexer := do
  let lexer ← lexer.saveKey
  let (token, behind) ← reader lexer.place
  return { lexer.finish token behind with mayStartKey := false }

def readParagraph (isFolded : Bool) (lexer : Lexer) : Except DocumentFault Lexer := do
  let lexer ← lexer.giveUpHere
  let (text, behind) ← paragraph isFolded lexer.indent lexer.place
  return { lexer.finish (.scalar text false) behind with mayStartKey := true }

/-- A plain scalar. Behind a line end a name may start. -/
def readPlain (lexer : Lexer) : Except DocumentFault Lexer := do
  let lexer ← lexer.saveKey
  let scalar := plainScalar lexer.inFlow lexer.indent lexer.place
  passBreak isUnended
    { lexer.add (.scalar scalar.text true) lexer.mark scalar.stop with
      place := scalar.gap.behind
      mayStartKey := scalar.gap.hasLineEnd }

def referenceAt (place : Place) : Except DocumentFault (Token × Place) := do
  let (name, behind) ← nodeName .reference place
  return (.reference name, behind)

def anchorAt (place : Place) : Except DocumentFault (Token × Place) := do
  let (name, behind) ← nodeName .anchor place
  return (.anchor name, behind)

def quotedAt (place : Place) : Except DocumentFault (Token × Place) := do
  let (text, behind) ← quotedScalar place
  return (.scalar text false, behind)

def readToken (c : CodePoint) (lexer : Lexer) : Except DocumentFault Lexer :=
  let gapFollows := isGap (lexer.place.ahead 1)
  if lexer.place.column == 0 && c == '%' then lexer.readDirective
  else if lexer.place.column == 0 && lexer.place.isAtMark startMark then
    lexer.readBoundary .documentStart
  else if lexer.place.column == 0 && lexer.place.isAtMark endMark then
    lexer.readBoundary .documentEnd
  else if c == '[' then lexer.readOpening .flowSequenceStart
  else if c == '\x7b' then lexer.readOpening .flowMappingStart
  else if c == ']' then lexer.readClosing .flowSequenceEnd
  else if c == '\x7d' then lexer.readClosing .flowMappingEnd
  else if c == ',' then lexer.readFlowEntry
  else if c == '-' && gapFollows then lexer.readBlockEntry
  else if c == '?' && (lexer.inFlow || gapFollows) then lexer.readKey
  else if c == ':' && (lexer.inFlow || gapFollows) then lexer.readValue
  else if c == '*' then lexer.readScalar referenceAt
  else if c == '&' then lexer.readScalar anchorAt
  else if c == '!' then lexer.readScalar tag
  else if c == '|' && !lexer.inFlow then lexer.readParagraph false
  else if c == '>' && !lexer.inFlow then lexer.readParagraph true
  else if c == '\'' || c == '"' then lexer.readScalar quotedAt
  else if startsPlain lexer.inFlow lexer.place then lexer.readPlain
  else .error (.malformed (some .token) none (.strayCharacter (some c)) lexer.mark)

/-! ## All tokens -/

/-- The fault that a reader of a token meets. Where the text breaks off nothing else can be
wrong. -/
def metFault (lexer : Lexer) (fault : DocumentFault) : DocumentFault :=
  match lexer.fault with
  | some breaking =>
      if fault.isAtEnd (lexer.place.advance lexer.place.rest.length).mark then breaking else fault
  | none => fault

/-- The tokens that no colon can change any more, and the lexer without them. -/
def release (lexer : Lexer) : List Lexeme × Lexer :=
  let count :=
    match lexer.keys.map (·.number) with
    | [] => lexer.held.length
    | number :: numbers => numbers.foldl min number - lexer.given
  let (ready, held) := lexer.held.splitAt count
  (ready, { lexer with held, given := lexer.given + ready.length })

/-- Reads the token that starts with a character, as far as the text goes. -/
def readNext (c : CodePoint) (lexer : Lexer) : Except DocumentFault Lexer := do
  let lexer ← lexer.passBreak isUntold
  let lexer ← (lexer.readToken c).mapError lexer.metFault
  let lexer ← lexer.passBreak isAtEnd
  lexer.giveUpStale

/-- The tokens from a place on, of which there are at most so many. -/
def lexemesFrom : Nat → Lexer → Lexemes
  | 0, lexer => .append lexer.held (.done lexer.mark)
  | bound + 1, lexer =>
      match lexer.toToken.passBreak isAtEnd >>= giveUpStale with
      | .error fault => .broken fault
      | .ok lexer =>
          let lexer := lexer.closeBlocks lexer.place.column
          match lexer.place.here with
          | none =>
              match lexer.readEnd with
              | .error fault => .broken fault
              | .ok lexer => .append lexer.held (.done lexer.mark)
          | some c =>
              match lexer.readNext c with
              | .error fault => .broken fault
              | .ok lexer =>
                  let (ready, lexer) := lexer.release
                  .append ready (lexemesFrom bound lexer)

end Lexer

def lexemes (supply : Supply) : Lexemes :=
  Lexer.lexemesFrom (supply.text.length + 1)
    { place := Place.start supply.text, fault := supply.fault }

end Inlay.Document
