import Inlay.Config.Document.Binary
import Inlay.Config.Document.Place
import Inlay.Config.Moment
import Inlay.Encoding.Fault
import Inlay.Number.Integer

/-!
# Faults of a document

What can be wrong with a configuration document, and how it is told: what was being read and
where that began, what was met instead and where.
-/

set_option autoImplicit false

namespace Inlay.Document

/-- What was being read. -/
inductive Activity where
  | token
  | simpleKey
  | directive
  | reference
  | anchor
  | tag
  | tagForm
  | directiveForm
  | blockScalar
  | quotedScalar
  | escapedScalar
  | taggedNode
  | blockNode
  | flowNode
  | blockSequence
  | blockMapping
  | flowSequence
  | flowMapping
  | mappingValue
  | orderedMapping
  | pairList
  | singleDocument
  | firstAnchor (name : Text)
deriving Repr, DecidableEq

def Activity.message : Activity → Text
  | .token => "while scanning for the next token"
  | .simpleKey => "while scanning a simple key"
  | .directive => "while scanning a directive"
  | .reference => "while scanning an alias"
  | .anchor => "while scanning an anchor"
  | .tag => "while scanning a tag"
  | .tagForm => "while parsing a tag"
  | .directiveForm => "while parsing a directive"
  | .blockScalar => "while scanning a block scalar"
  | .quotedScalar => "while scanning a quoted scalar"
  | .escapedScalar => "while scanning a double-quoted scalar"
  | .taggedNode => "while parsing a node"
  | .blockNode => "while parsing a block node"
  | .flowNode => "while parsing a flow node"
  | .blockSequence => "while parsing a block collection"
  | .blockMapping => "while parsing a block mapping"
  | .flowSequence => "while parsing a flow sequence"
  | .flowMapping => "while parsing a flow mapping"
  | .mappingValue => "while constructing a mapping"
  | .orderedMapping => "while constructing an ordered map"
  | .pairList => "while constructing pairs"
  | .singleDocument => "expected a single document in the stream"
  | .firstAnchor name => "found duplicate anchor " ++ quoted name ++ "; first occurrence"

/-- What would have been well formed at a place. -/
inductive Expectation where
  | nameCharacter
  | digit
  | digitOrPoint
  | digitOrSpace
  | space
  | lineEnd
  | exclamationMark
  | closingAngle
  | address
  | addressCode
  | hexCode (width : Nat)
  | scalarIndicators
deriving Repr, DecidableEq

def Expectation.message : Expectation → Text
  | .nameCharacter => "alphabetic or numeric character"
  | .digit => "a digit"
  | .digitOrPoint => "a digit or '.'"
  | .digitOrSpace => "a digit or ' '"
  | .space => "' '"
  | .lineEnd => "a comment or a line break"
  | .exclamationMark => "'!'"
  | .closingAngle => "'>'"
  | .address => "URI"
  | .addressCode => "URI escape sequence of 2 hexadecimal numbers"
  | .hexCode width => s!"escape sequence of {width} hexadecimal numbers"
  | .scalarIndicators => "chomping or indentation indicators"

/-- What was met. -/
inductive Problem where
  | strayCharacter (c : Option CodePoint)
  | missingColon
  | misplacedEntry
  | misplacedKey
  | misplacedValue
  | unexpected (expectation : Expectation) (found : Option CodePoint)
  | zeroIndentation
  | undecodable (fault : DecodeFault)
  | unknownEscape (c : Option CodePoint)
  | unfinishedText
  | documentBoundary
  | unknownHandle (handle : Text)
  | noContent (token : String)
  | noBlockEnd (token : String)
  | noSequenceEnd (token : String)
  | noMappingEnd (token : String)
  | noDocumentStart (token : String)
  | repeatedVersion
  | otherVersion
  | repeatedHandle (handle : Text)
  | otherDocument
  | unknownReference (name : Text)
  | secondAnchor
  | unknownTag (tag : Text)
  | notScalar (kind : String)
  | notSequence (kind : String)
  | notMapping (kind : String)
  | notMergeable (kind : String)
  | notMergeableItem (kind : String)
  | collectionKey
  | notPairList (kind : String)
  | notPair (kind : String)
  | pairSize (count : Nat)
  | notBinary (fault : BinaryFault)
deriving Repr, DecidableEq

/-- Whether a problem is that there is no more text. -/
def Problem.missesText : Problem → Bool
  | .strayCharacter none | .unexpected _ none | .unknownEscape none | .unfinishedText => true
  | _ => false

/-- A character in a message; the end of the document counts as a null character. -/
def shownCharacter (c : Option CodePoint) : Text := quoted [c.getD '\x00']

def shownToken (name : String) : Text := quoted name

def Problem.message : Problem → Text
  | .strayCharacter c => "found character " ++ shownCharacter c ++ " that cannot start any token"
  | .missingColon => "could not find expected ':'"
  | .misplacedEntry => "sequence entries are not allowed here"
  | .misplacedKey => "mapping keys are not allowed here"
  | .misplacedValue => "mapping values are not allowed here"
  | .unexpected expectation found =>
      "expected " ++ expectation.message ++ ", but found " ++ shownCharacter found
  | .zeroIndentation => "expected indentation indicator in the range 1-9, but found 0"
  | .undecodable fault => fault.message
  | .unknownEscape c => "found unknown escape character " ++ shownCharacter c
  | .unfinishedText => "found unexpected end of stream"
  | .documentBoundary => "found unexpected document separator"
  | .unknownHandle handle => "found undefined tag handle " ++ quoted handle
  | .noContent token => "expected the node content, but found " ++ shownToken token
  | .noBlockEnd token => "expected <block end>, but found " ++ shownToken token
  | .noSequenceEnd token => "expected ',' or ']', but got " ++ shownToken token
  | .noMappingEnd token => "expected ',' or '\x7d', but got " ++ shownToken token
  | .noDocumentStart token => "expected '<document start>', but found " ++ shownToken token
  | .repeatedVersion => "found duplicate YAML directive"
  | .otherVersion => "found incompatible YAML document (version 1.* is required)"
  | .repeatedHandle handle => "duplicate tag handle " ++ quoted handle
  | .otherDocument => "but found another document"
  | .unknownReference name => "found undefined alias " ++ quoted name
  | .secondAnchor => "second occurrence"
  | .unknownTag tag =>
      "could not determine a constructor for the tag " ++ quoted tag
  | .notScalar kind => s!"expected a scalar node, but found {kind}"
  | .notSequence kind => s!"expected a sequence node, but found {kind}"
  | .notMapping kind => s!"expected a mapping node, but found {kind}"
  | .notMergeable kind =>
      s!"expected a mapping or list of mappings for merging, but found {kind}"
  | .notMergeableItem kind => s!"expected a mapping for merging, but found {kind}"
  | .collectionKey => "found unhashable key"
  | .notPairList kind => s!"expected a sequence, but found {kind}"
  | .notPair kind => s!"expected a mapping of length 1, but found {kind}"
  | .pairSize count => s!"expected a single mapping item, but found {count} items"
  | .notBinary fault => fault.message

end Document

open Document

/-- Why a scalar has no value of the kind that its tag tells. -/
inductive ScalarFault where
  | numeral (fault : NumeralFault)
  | emptyNumeral
  | notDecimal (text : Text)
  | notTruth (text : Text)
  | notMoment
  | moment (fault : MomentFault)
deriving Repr, DecidableEq

def ScalarFault.kind : ScalarFault → String
  | .numeral _ | .notDecimal _ | .moment _ => "ValueError"
  | .emptyNumeral => "IndexError"
  | .notTruth _ => "KeyError"
  | .notMoment => "AttributeError"

def ScalarFault.message : ScalarFault → Text
  | .numeral fault => fault.message
  | .emptyNumeral => "string index out of range"
  | .notDecimal text => "could not convert string to float: " ++ quoted text
  | .notTruth text => quoted text
  | .notMoment => "'NoneType' object has no attribute 'groupdict'"
  | .moment fault => fault.message

/-- Why a document has no value. A document that is not well formed is told apart from one
that could not be read, and from one that writes a character or a value which does not
exist. -/
inductive DocumentFault where
  | malformed (activity : Option Activity) (start : Option Mark) (problem : Problem) (mark : Mark)
  | unacceptable (c : CodePoint) (position : Nat)
  | unreadable (fault : DecodeFault)
  | noCharacter (code : Nat)
  | scalar (fault : ScalarFault)
deriving Repr, DecidableEq

namespace DocumentFault

def kind : DocumentFault → String
  | .malformed _ _ _ _ | .unacceptable _ _ => "YAMLError"
  | .unreadable _ => "UnicodeDecodeError"
  | .noCharacter code => if code < Nat.pow 2 31 then "ValueError" else "OverflowError"
  | .scalar fault => fault.kind

/-- A problem met while something was being read that began at a mark. -/
def during (activity : Activity) (start : Mark) (problem : Problem) (mark : Mark) :
    DocumentFault :=
  .malformed (some activity) (some start) problem mark

def plain (problem : Problem) (mark : Mark) : DocumentFault := .malformed none none problem mark

/-- Whether what is wrong is that the text ends, or lies at the mark at which it ends. A mark
between documents has three characters. -/
def isAtEnd (stop : Mark) : DocumentFault → Bool
  | .malformed _ _ .documentBoundary mark =>
      mark.line == stop.line && stop.column ≤ mark.column + 3
  | .malformed _ _ problem mark => problem.missesText || mark == stop
  | _ => false

/-- How a mark in a document is told. Lines and columns are counted from one. -/
def whereMessage (name : Text) (mark : Mark) : Text :=
  "  in \"" ++ name ++ s!"\", line {mark.line + 1}, column {mark.column + 1}"

/-- The wording of a fault of the document with a name. Where an activity began is told unless
the problem is at the same place. -/
def message (name : Text) : DocumentFault → Text
  | .malformed activity start problem mark =>
      let began :=
        match start with
        | some start => if start = mark then [] else [whereMessage name start]
        | none => []
      Text.joinWith "\n"
        ((activity.map Activity.message).toList ++ began ++
          [problem.message, whereMessage name mark])
  | .unacceptable c position =>
      "unacceptable character #x" ++ hexNumeral 4 c.toNat ++
        ": special characters are not allowed\n  in \"" ++ name ++ s!"\", position {position}"
  | .unreadable fault => fault.message
  | .noCharacter code =>
      if code < Nat.pow 2 31 then "chr() arg not in range(0x110000)"
      else "Python int too large to convert to C int"
  | .scalar fault => fault.message

end DocumentFault

end Inlay
