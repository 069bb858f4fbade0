import Inlay.Config.Document.Fault
import Inlay.Encoding.Reader

/-!
# Supplied text

The text of a document is supplied in blocks, the next one when a reader comes to the end of
those before it. A block that cannot be read, or that holds a character which may not stand in
a document, is not supplied at all, so what is wrong in front of it is found first.
-/

set_option autoImplicit false

namespace Inlay.Document

/-- A character that may stand in a document. -/
def isAllowed (c : CodePoint) : Bool :=
  c == '\t' || c == '\n' || (' ' ≤ c && c ≤ '~') || c == '\x85' ||
    ('\xa0' ≤ c && c ≤ '\ud7ff') || ('\ue000' ≤ c && c ≤ '\ufffd') || 0x10000 ≤ c.toNat

/-- The first character that may not stand in a document, and its position. -/
def firstUnacceptable? : Nat → Text → Option (CodePoint × Nat)
  | _, [] => none
  | position, c :: text =>
      if isAllowed c then firstUnacceptable? (position + 1) text else some (c, position)

/-- The text that is supplied, and what a reader meets at its end if it breaks off there. -/
structure Supply where
  text : Text
  fault : Option DocumentFault := none
deriving Repr, DecidableEq

namespace Supply

/-- The supply of the blocks from a position on, behind which there may be a fault. -/
def ofBlocks : Nat → List Text → Option DocumentFault → Supply
  | _, [], fault => ⟨[], fault⟩
  | position, block :: blocks, fault =>
      match firstUnacceptable? position block with
      | some (c, position) => ⟨[], some (.unacceptable c position)⟩
      | none =>
          let behind := ofBlocks (position + block.length) blocks fault
          { behind with text := block ++ behind.text }

/-- The characters that a document asks for at once. -/
def portionSize : Nat := 4096

/-- The supply of a file. The first block has two portions, each of the others has one. -/
def ofBytes (bytes : List UInt8) : Supply :=
  match portionsOfFile portionSize bytes with
  | (first :: second :: others, fault) =>
      ofBlocks 0 ((first ++ second) :: others) (fault.map .unreadable)
  | (_, some fault) => ⟨[], some (.unreadable fault)⟩
  | (portions, none) => ofBlocks 0 portions none

end Supply

end Inlay.Document
