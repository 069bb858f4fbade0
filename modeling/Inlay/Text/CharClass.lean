import Inlay.Text.CodePoint

/-!
# Character classes

Classes of characters given as tables of code point ranges.
-/

set_option autoImplicit false

namespace Inlay

/-- Membership of a character in a table of inclusive code point ranges. -/
def inRanges (ranges : List (Nat × Nat)) (c : CodePoint) : Bool :=
  ranges.any fun range => range.1 ≤ c.toNat && c.toNat ≤ range.2

end Inlay
