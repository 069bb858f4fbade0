import Inlay.Config.Document.Scalar
import Inlay.Config.Document.Token

/-!
# Nodes

The tree that the tokens of a document describe. A node may be given a name, by which others
refer to it; it stands in their places too.
-/

set_option autoImplicit false

namespace Inlay.Document

/-- A node: its tag, what it holds, and where it begins. -/
inductive Node where
  | scalar (tag text : Text) (mark : Mark)
  | sequence (tag : Text) (items : List Node) (mark : Mark)
  | mapping (tag : Text) (fields : List (Node × Node)) (mark : Mark)
deriving Repr

namespace Node

def tag : Node → Text
  | .scalar tag _ _ => tag
  | .sequence tag _ _ => tag
  | .mapping tag _ _ => tag

def mark : Node → Mark
  | .scalar _ _ mark => mark
  | .sequence _ _ mark => mark
  | .mapping _ _ mark => mark

def kind : Node → String
  | .scalar _ _ _ => "scalar"
  | .sequence _ _ _ => "sequence"
  | .mapping _ _ _ => "mapping"

mutual

def height : Node → Nat
  | .scalar _ _ _ => 1
  | .sequence _ items _ => heightOfItems items + 1
  | .mapping _ fields _ => heightOfFields fields + 1
termination_by structural node => node

def heightOfItems : List Node → Nat
  | [] => 0
  | item :: items => max item.height (heightOfItems items)
termination_by structural items => items

def heightOfFields : List (Node × Node) → Nat
  | [] => 0
  | (key, value) :: fields => max (max key.height value.height) (heightOfFields fields)
termination_by structural fields => fields

end

def empty (mark : Mark) : Node := .scalar (plainTag []) [] mark

end Node

/-- What stands in front of a node: the name that it is given, its tag as it is written, and
where the first of them begins. -/
structure Properties where
  anchor : Option Text := none
  tag : Option (Option Text × Text) := none
  start : Option Mark := none
  tagMark : Mark := ⟨0, 0⟩

abbrev Shorthands := List (Text × Text)

def standardShorthands : Shorthands := [(['!'], ['!']), ("!!", standardLead)]

/-- How far a document was read: the tokens that are left, and the names of nodes. A name is
known from where its node begins, but its node only from where it ends. -/
structure Progress where
  lexemes : Lexemes
  anchors : List (Text × Mark × Option Node) := []

abbrev Parser := StateT Progress (Except DocumentFault)

namespace Parser

def peek : Parser Lexeme := do (← get).lexemes.first

def skip : Parser Unit := modify fun progress => { progress with lexemes := progress.lexemes.rest }

/-- The next token, which is passed over. -/
def take : Parser Lexeme := do
  let lexeme ← peek
  skip
  return lexeme

/-- Passes over the next token if it is the given one. -/
def accept (token : Token) : Parser Bool := do
  if (← peek).token = token then
    skip
    return true
  else return false

def isAt (tokens : List Token) : Parser Bool := do return tokens.contains (← peek).token

/-- Reads the properties of a node: a name and a tag, in any order. -/
def properties : Parser Properties := do
  let first ← peek
  match first.token with
  | .anchor name =>
      skip
      let second ← peek
      match second.token with
      | .tag handle suffix =>
          skip
          return ⟨some name, some (handle, suffix), some first.start, second.start⟩
      | _ => return { anchor := some name, start := some first.start }
  | .tag handle suffix =>
      skip
      let second ← peek
      match second.token with
      | .anchor name =>
          skip
          return ⟨some name, some (handle, suffix), some first.start, first.start⟩
      | _ => return ⟨none, some (handle, suffix), some first.start, first.start⟩
  | _ => return {}

/-- The whole tag that was written in front of a node. The mark of no tag counts as none. -/
def wholeTag (shorthands : Shorthands) (properties : Properties) : Parser (Option Text) := do
  match properties.tag with
  | none => return none
  | some (none, suffix) => return some suffix
  | some (some handle, suffix) =>
      match shorthands.lookup handle with
      | some lead => return some (lead ++ suffix)
      | none =>
          throw (.during .taggedNode (properties.start.getD properties.tagMark)
            (.unknownHandle handle) properties.tagMark)

/-- Makes the name of a node known. It may not be known yet. -/
def announce (mark : Mark) : Option Text → Parser Unit
  | none => return
  | some name => do
      match (← get).anchors.lookup name with
      | some (first, _) => throw (.during (.firstAnchor name) first .secondAnchor mark)
      | none => modify fun progress =>
          { progress with anchors := (name, mark, none) :: progress.anchors }

def register (node : Node) : Option Text → Parser Node
  | none => return node
  | some name => do
      modify fun progress =>
        { progress with anchors := (name, node.mark, some node) :: progress.anchors }
      return node

/-- The node that a name refers to. A node does not hold itself. -/
def referred (name : Text) (mark : Mark) : Parser Node := do
  match (← get).anchors.lookup name with
  | some (_, some node) => return node
  | _ => throw (.plain (.unknownReference name) mark)

/-- The tag of a scalar: the one that is written, or else the one that its text asks for if it
is plain. -/
def scalarTag (written : Option Text) (text : Text) (isPlain : Bool) : Text :=
  match written with
  | none => if isPlain then plainTag text else textTag
  | some tag => if tag = "!" then plainTag text else tag

/-- The tag of a collection: the one that is written, or else the usual one. -/
def collectionTag (written : Option Text) (usual : Text) : Text :=
  match written with
  | none => usual
  | some tag => if tag = "!" then usual else tag

/-- Where a node may stand: between brackets, in a block, or in a block where a sequence may
be aligned with the names around it. -/
inductive Position where
  | flow
  | block
  | field
deriving Repr, DecidableEq

def Position.activity : Position → Activity
  | .flow => .flowNode
  | _ => .blockNode

mutual

def node (shorthands : Shorthands) : Nat → Position → Parser Node
  | 0, _ => do throw (.plain (.noContent (← peek).token.name) (← peek).start)
  | bound + 1, position => do
      let first ← peek
      match first.token with
      | .reference name =>
          skip
          referred name first.start
      | _ =>
          let properties ← properties
          let written ← wholeTag shorthands properties
          let lexeme ← peek
          let start := properties.start.getD lexeme.start
          let anchor := properties.anchor
          match lexeme.token, position with
          | .blockEntry, .field =>
              announce start anchor
              let items ← alignedItems shorthands bound
              register (.sequence (collectionTag written sequenceTag) items start) anchor
          | .scalar text isPlain, _ =>
              skip
              announce start anchor
              register (.scalar (scalarTag written text isPlain) text start) anchor
          | .flowSequenceStart, _ =>
              announce start anchor
              skip
              let items ← flowItems shorthands bound lexeme.start true
              register (.sequence (collectionTag written sequenceTag) items start) anchor
          | .flowMappingStart, _ =>
              announce start anchor
              skip
              let fields ← flowFields shorthands bound lexeme.start true
              register (.mapping (collectionTag written mappingTag) fields start) anchor
          | .blockSequenceStart, .block | .blockSequenceStart, .field =>
              announce start anchor
              skip
              let items ← blockItems shorthands bound lexeme.start
              register (.sequence (collectionTag written sequenceTag) items start) anchor
          | .blockMappingStart, .block | .blockMappingStart, .field =>
              announce start anchor
              skip
              let fields ← blockFields shorthands bound lexeme.start
              register (.mapping (collectionTag written mappingTag) fields start) anchor
          | token, _ =>
              if anchor.isSome || written.isSome then
                announce start anchor
                register (.scalar (scalarTag written [] true) [] start) anchor
              else
                throw (.during position.activity start (.noContent token.name) lexeme.start)

/-- Reads a node that may be missing in front of the given tokens. -/
def nodeUnless (shorthands : Shorthands) : Nat → Position → List Token → Mark → Parser Node
  | 0, _, _, mark => return .empty mark
  | bound + 1, position, tokens, mark => do
      if ← isAt tokens then return .empty mark else node shorthands bound position

def blockItems (shorthands : Shorthands) : Nat → Mark → Parser (List Node)
  | 0, _ => return []
  | bound + 1, start => do
      let lexeme ← take
      match lexeme.token with
      | .blockEntry =>
          let item ← nodeUnless shorthands bound .block [.blockEntry, .blockEnd] lexeme.stop
          return item :: (← blockItems shorthands bound start)
      | .blockEnd => return []
      | token => throw (.during .blockSequence start (.noBlockEnd token.name) lexeme.start)

/-- Reads the entries of a sequence that is aligned with the names around it. -/
def alignedItems (shorthands : Shorthands) : Nat → Parser (List Node)
  | 0 => return []
  | bound + 1 => do
      let lexeme ← peek
      if lexeme.token = .blockEntry then
        skip
        let item ← nodeUnless shorthands bound .block [.blockEntry, .key, .value, .blockEnd]
          lexeme.stop
        return item :: (← alignedItems shorthands bound)
      else return []

def blockFields (shorthands : Shorthands) : Nat → Mark → Parser (List (Node × Node))
  | 0, _ => return []
  | bound + 1, start => do
      let lexeme ← take
      match lexeme.token with
      | .key =>
          let key ← nodeUnless shorthands bound .field [.key, .value, .blockEnd] lexeme.stop
          let value ← fieldValue shorthands bound .field [.key, .value, .blockEnd]
          return (key, value) :: (← blockFields shorthands bound start)
      | .blockEnd => return []
      | token => throw (.during .blockMapping start (.noBlockEnd token.name) lexeme.start)

/-- Reads the value of a field, which may be missing with or without its colon. -/
def fieldValue (shorthands : Shorthands) : Nat → Position → List Token → Parser Node
  | 0, _, _ => return .empty (← peek).start
  | bound + 1, position, tokens => do
      let lexeme ← peek
      if lexeme.token = .value then
        skip
        nodeUnless shorthands bound position tokens lexeme.stop
      else return .empty lexeme.start

/-- Reads the items of a sequence in brackets. A name and a value are an item that is a
mapping with one field. -/
def flowItems (shorthands : Shorthands) : Nat → Mark → Bool → Parser (List Node)
  | 0, _, _ => return []
  | bound + 1, start, isFirst => do
      let lexeme ← peek
      if lexeme.token = .flowSequenceEnd then
        skip
        return []
      if !isFirst then
        if lexeme.token = .flowEntry then skip
        else throw (.during .flowSequence start (.noSequenceEnd lexeme.token.name) lexeme.start)
      let next ← peek
      match next.token with
      | .flowSequenceEnd =>
          skip
          return []
      | .key =>
          skip
          let key ← nodeUnless shorthands bound .flow [.value, .flowEntry, .flowSequenceEnd]
            next.stop
          let value ← fieldValue shorthands bound .flow [.flowEntry, .flowSequenceEnd]
          let item : Node := .mapping mappingTag [(key, value)] next.start
          return item :: (← flowItems shorthands bound start false)
      | _ =>
          let item ← node shorthands bound .flow
          return item :: (← flowItems shorthands bound start false)

/-- Reads the fields of a mapping in brackets. A node without a colon is a name without a
value. -/
def flowFields (shorthands : Shorthands) : Nat → Mark → Bool → Parser (List (Node × Node))
  | 0, _, _ => return []
  | bound + 1, start, isFirst => do
      let lexeme ← peek
      if lexeme.token = .flowMappingEnd then
        skip
        return []
      if !isFirst then
        if lexeme.token = .flowEntry then skip
        else throw (.during .flowMapping start (.noMappingEnd lexeme.token.name) lexeme.start)
      let next ← peek
      match next.token with
      | .flowMappingEnd =>
          skip
          return []
      | .key =>
          skip
          let key ← nodeUnless shorthands bound .flow [.value, .flowEntry, .flowMappingEnd]
            next.stop
          let value ← fieldValue shorthands bound .flow [.flowEntry, .flowMappingEnd]
          return (key, value) :: (← flowFields shorthands bound start false)
      | _ =>
          let key ← node shorthands bound .flow
          let value := Node.empty (← peek).start
          return (key, value) :: (← flowFields shorthands bound start false)

end

/-! ## Documents -/

/-- The version and the shorthands that directives in front of a document declare. -/
structure Declarations where
  hasVersion : Bool := false
  shorthands : Shorthands := []

/-- Takes up a directive. The version is declared once, and so is each handle. -/
def Declarations.add (declarations : Declarations) (mark : Mark) :
    Directive → Except DocumentFault Declarations
  | .version major _ =>
      if declarations.hasVersion then .error (.plain .repeatedVersion mark)
      else if major ≠ 1 then .error (.plain .otherVersion mark)
      else .ok { declarations with hasVersion := true }
  | .shorthand handle lead =>
      if (declarations.shorthands.lookup handle).isSome then
        .error (.plain (.repeatedHandle handle) mark)
      else .ok { declarations with shorthands := declarations.shorthands ++ [(handle, lead)] }
  | .other => .ok declarations

/-- Reads the directives in front of a document, of which there are at most so many. -/
def directives : Nat → Declarations → Parser Declarations
  | 0, declarations => return declarations
  | bound + 1, declarations => do
      let lexeme ← peek
      match lexeme.token with
      | .directive directive =>
          skip
          directives bound (← declarations.add lexeme.start directive)
      | _ => return declarations

def documentStart (bound : Nat) : Parser Shorthands := do
  let declarations ← directives bound {}
  let lexeme ← peek
  if lexeme.token = .documentStart then
    skip
    return declarations.shorthands ++ standardShorthands
  else throw (.plain (.noDocumentStart lexeme.token.name) lexeme.start)

/-- Passes over the marks that end documents, of which there are at most so many. -/
def documentEnds : Nat → Parser Unit
  | 0 => return
  | bound + 1 => do if ← accept .documentEnd then documentEnds bound

def isAtDirective : Parser Bool := do
  match (← peek).token with
  | .directive _ => return true
  | _ => return false

/-- Reads a document. Behind the mark that starts it there may be nothing. -/
def document (bound : Nat) : Parser Node := do
  let lexeme ← peek
  let isAnnounced := (← isAtDirective) || lexeme.token = .documentStart
  if isAnnounced then
    let shorthands ← documentStart bound
    let isOver := (← isAtDirective) || (← isAt [.documentStart, .documentEnd, .streamEnd])
    if isOver then return .empty (← peek).start else node shorthands bound .block
  else node standardShorthands bound .block

/-- Reads the only document, if there is one. -/
def onlyDocument (bound : Nat) : Parser (Option Node) := do
  if ← isAt [.streamEnd] then return none
  else
    let node ← document bound
    documentEnds bound
    let lexeme ← peek
    if lexeme.token = .streamEnd then return some node
    else
      let _ ← documentStart bound
      throw (.during .singleDocument node.mark .otherDocument lexeme.start)

end Parser

/-- The tree of the only document that tokens describe. -/
def Node.ofLexemes? (lexemes : Lexemes) : Except DocumentFault (Option Node) :=
  (Parser.onlyDocument (4 * lexemes.size + 8)).run' ⟨lexemes, []⟩

end Inlay.Document
