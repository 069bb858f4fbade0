import Inlay.Config.Document.Lexer
import Inlay.Config.Document.Node
import Inlay.Fault

/-!
# What documents mean

The value of a document. Nodes are visited level by level, each level from left to right, so
that of several faults the one that is least deep is told. The items of a set come in the order in
which they are written.
-/

set_option autoImplicit false

namespace Inlay.Document

/-- A value, or the first fault that is met with the level on which it is met. -/
abbrev Outcome (α : Type) := Except (Nat × DocumentFault) α

namespace Outcome

variable {α β γ : Type}

/-- Both of two outcomes. The fault of the upper level comes first, and on one level the left
one. -/
def both (combine : α → β → γ) : Outcome α → Outcome β → Outcome γ
  | .ok left, .ok right => .ok (combine left right)
  | .error fault, .ok _ => .error fault
  | .ok _, .error fault => .error fault
  | .error left, .error right => .error (if right.1 < left.1 then right else left)

def all : List (Outcome α) → Outcome (List α)
  | [] => .ok []
  | outcome :: outcomes => both (· :: ·) outcome (all outcomes)

def onLevel (level : Nat) : Except DocumentFault α → Outcome α
  | .ok value => .ok value
  | .error fault => .error (level, fault)

end Outcome

namespace Node

/-! ## Merging -/

/-- Whether a node is the name of a field whose value is merged into the mapping. -/
def isMerge (node : Node) : Bool := node.tag == mergeTag

/-- A name as it counts in a mapping. The name of the mapping's own value is a text there. -/
def asKey : Node → Node
  | .scalar tag text mark => .scalar (if tag = valueTag then textTag else tag) text mark
  | node => node

mutual

/-- The fields of a mapping, behind those that are merged into it. -/
def mergedFields (mark : Mark) :
    List (Node × Node) → Except DocumentFault (List (Node × Node) × List (Node × Node))
  | [] => .ok ([], [])
  | (key, value) :: fields =>
      if key.isMerge then do
        let first ← mergeSources mark value
        let (merged, own) ← mergedFields mark fields
        return (first ++ merged, own)
      else do
        let (merged, own) ← mergedFields mark fields
        return (merged, (key.asKey, value) :: own)
termination_by structural fields => fields

/-- The fields that a node brings into a mapping: those of a mapping, or those of the mappings
of a sequence, of which the first ones prevail. -/
def mergeSources (mark : Mark) : Node → Except DocumentFault (List (Node × Node))
  | .mapping _ fields inner => do
      let (merged, own) ← mergedFields inner fields
      return merged ++ own
  | .sequence _ items _ => mergeItems mark items
  | .scalar _ _ inner => .error (.during .mappingValue mark (.notMergeable "scalar") inner)
termination_by structural node => node

/-- The fields of the mappings of a sequence, those of the last one first. -/
def mergeItems (mark : Mark) : List Node → Except DocumentFault (List (Node × Node))
  | [] => .ok []
  | item :: items => do
      let first ←
        match item with
        | .mapping _ fields inner => do
            let (merged, own) ← mergedFields inner fields
            pure (merged ++ own)
        | .sequence _ _ inner =>
            throw (.during .mappingValue mark (.notMergeableItem "sequence") inner)
        | .scalar _ _ inner =>
            throw (.during .mappingValue mark (.notMergeableItem "scalar") inner)
      let others ← mergeItems mark items
      return others ++ first
termination_by structural items => items

end

def allFields (mark : Mark) (fields : List (Node × Node)) :
    Except DocumentFault (List (Node × Node)) := do
  let (merged, own) ← mergedFields mark fields
  return merged ++ own

/-! ## Values -/

/-- The name of a field that a value stands for. Collections name nothing. -/
def keyOfValue? : Value → Option Key
  | .null => some .null
  | .bool value => some (.bool value)
  | .int value => some (.int value)
  | .float value => some (.float value)
  | .text value => some (.text value)
  | .moment value => some (.moment value)
  | .bytes value => some (.bytes value)
  | _ => none

/-- What is read of a list of pairs: that of an ordered mapping, or that of pairs of any names. -/
def pairActivity? (tag : Text) : Option Activity :=
  if tag = orderedTag then some .orderedMapping
  else if tag = pairsTag then some .pairList
  else none

def isFieldTag (tag : Text) : Bool := tag == mappingTag || tag == setTag

def isCollectionTag (tag : Text) : Bool :=
  tag == sequenceTag || isFieldTag tag || (pairActivity? tag).isSome

def isScalarTag (tag : Text) : Bool :=
  [nullTag, boolTag, intTag, floatTag, momentTag, textTag, binaryTag].contains tag

/-- The fault of a node whose tag does not fit, on the level on which it is met: a tag that no
value has is met together with the node, another kind of collection one level below. -/
def misfit (level : Nat) (node : Node) : Nat × DocumentFault :=
  match pairActivity? node.tag with
  | some activity =>
      (level + 1, .during activity node.mark (.notPairList node.kind) node.mark)
  | none =>
      if node.tag == sequenceTag then (level + 1, .plain (.notSequence node.kind) node.mark)
      else if isFieldTag node.tag then (level + 1, .plain (.notMapping node.kind) node.mark)
      else (level, .plain (.unknownTag node.tag) node.mark)

mutual

/-- The text that a node holds, which for a mapping is that of the mapping's own value. -/
def ownText : Node → Except DocumentFault Text
  | .scalar _ text _ => .ok text
  | .sequence _ _ mark => .error (.plain (.notScalar "sequence") mark)
  | .mapping _ fields mark => ownTextOf mark fields
termination_by structural node => node

def ownTextOf (mark : Mark) : List (Node × Node) → Except DocumentFault Text
  | [] => .error (.plain (.notScalar "mapping") mark)
  | (key, value) :: fields =>
      if key.tag = valueTag then ownText value else ownTextOf mark fields
termination_by structural fields => fields

end

/-- The value of a collection whose tag tells no collection. -/
def scalarLike (level : Nat) (node : Node) : Outcome Value :=
  if isScalarTag node.tag then
    Outcome.onLevel level (node.ownText >>= fun text => scalarValue node.tag text node.mark)
  else .error (misfit level node)

/-- The name of a field that a node stands for, in a mapping that begins at a mark. -/
def key (start : Mark) (level : Nat) (node : Node) : Outcome Key :=
  if isCollectionTag node.tag then
    .error (level, .during .mappingValue start .collectionKey node.mark)
  else
    let content :=
      match node with
      | .scalar tag text mark => Outcome.onLevel level (scalarValue tag text mark)
      | node => scalarLike level node
    match content with
    | .error fault => .error fault
    | .ok value =>
        match keyOfValue? value with
        | some key => .ok key
        | none => .error (level, .during .mappingValue start .collectionKey node.mark)

/-- The only field of an item in a list of pairs that begins at a mark. -/
def pair (activity : Activity) (start : Mark) : Node → Except DocumentFault (Node × Node)
  | .mapping _ [field] _ => .ok field
  | .mapping _ fields mark => .error (.during activity start (.pairSize fields.length) mark)
  | node => .error (.during activity start (.notPair node.kind) node.mark)

/-- A pair as it is shown. -/
def pairWording (first second : Value) : Text :=
  "(" ++ first.shown ++ ", " ++ second.shown ++ ")"

/-- The value of a collection with such fields. Of a set only the names count. -/
def ofFields (tag : Text) (fields : List (Key × Value)) : Value :=
  let distinct := fields.foldl (fun sofar (key, value) => Fields.set key value sofar) []
  if tag = setTag then .set (distinct.map (·.1)) else .mapping distinct

/-- The value of a node that is met on a level, for nodes of at most so many levels. -/
def value : Nat → Nat → Node → Outcome Value
  | 0, level, node => .error (misfit level node)
  | bound + 1, level, node =>
      match node with
      | .scalar tag text mark =>
          if isCollectionTag tag then .error (misfit level node)
          else Outcome.onLevel level (scalarValue tag text mark)
      | .sequence tag items mark =>
          if tag = sequenceTag then
            (Outcome.all (items.map (value bound (level + 1)))).map .list
          else
            match pairActivity? tag with
            | some activity =>
                (Outcome.all (items.map fun item =>
                  match pair activity mark item with
                  | .error fault => .error (level + 1, fault)
                  | .ok (first, second) =>
                      Outcome.both pairWording (value bound (level + 1) first)
                        (value bound (level + 1) second))).map .pairs
            | none =>
                if isFieldTag tag then .error (misfit level node) else scalarLike level node
      | .mapping tag fields mark =>
          if isFieldTag tag then
            match allFields mark fields with
            | .error fault => .error (level + 1, fault)
            | .ok fields =>
                (Outcome.all (fields.map fun (name, content) =>
                  Outcome.both Prod.mk (key mark (level + 1) name)
                    (value bound (level + 1) content))).map (ofFields tag)
          else if isCollectionTag tag then .error (misfit level node)
          else scalarLike level node

end Node

/-- The value of the only document in a supplied text whose lines end with line feeds. A text
without a document holds nothing. -/
def read (supply : Supply) : Except DocumentFault Value :=
  match Node.ofLexemes? (lexemes supply) with
  | .error fault => .error fault
  | .ok none => .ok .null
  | .ok (some node) =>
      match node.value node.height 0 with
      | .ok value => .ok value
      | .error (_, fault) => .error fault

/-- The value of the document in a file with a name. -/
def readFile (name : Text) (bytes : Bytes) : Except Refusal Value :=
  (read (.ofBytes bytes)).mapError fun fault => ⟨fault.kind, fault.message name⟩

end Inlay.Document
