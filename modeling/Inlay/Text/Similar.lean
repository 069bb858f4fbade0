import Inlay.Text.Basic

/-!
# Similar texts

How much of two texts agrees: their longest common block counts, and then what agrees in front
of it and behind it. Texts are similar when the agreeing characters make up three fifths of
both.
-/

set_option autoImplicit false

namespace Inlay.Similar

def commonLead : Text → Text → Nat
  | c :: left, d :: right => if c = d then commonLead left right + 1 else 0
  | _, _ => 0

/-- A common block of two texts: where it starts in each of them, and its length. -/
structure Block where
  left : Nat
  right : Nat
  length : Nat
deriving Repr, DecidableEq

/-- The longest common block; of several, the one that starts first in the left text, and then
in the right one. -/
def longestBlock (left right : Text) : Block :=
  (List.range left.length).foldl
    (fun best start =>
      (List.range right.length).foldl
        (fun best other =>
          let length := commonLead (left.drop start) (right.drop other)
          if length > best.length then ⟨start, other, length⟩ else best)
        best)
    ⟨0, 0, 0⟩

/-- The number of characters that agree, for a left text of at most so many characters. -/
def agreeing : Nat → Text → Text → Nat
  | 0, _, _ => 0
  | bound + 1, left, right =>
      let block := longestBlock left right
      if block.length = 0 then 0
      else
        block.length + agreeing bound (left.take block.left) (right.take block.right) +
          agreeing bound (left.drop (block.left + block.length))
            (right.drop (block.right + block.length))

def isSimilar (known text : Text) : Bool :=
  10 * agreeing known.length known text ≥ 3 * (known.length + text.length)

end Inlay.Similar
