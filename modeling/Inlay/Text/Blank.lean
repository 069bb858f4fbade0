import Inlay.Text.CharClass

/-!
# Blank characters

The blanks that may separate tokens, and the two characters that break a line.
-/

set_option autoImplicit false

namespace Inlay

/-- Code points of the Unicode white space characters and the four information separators. -/
def blankRanges : List (Nat × Nat) :=
  [(0x9, 0xd), (0x1c, 0x20), (0x85, 0x85), (0xa0, 0xa0), (0x1680, 0x1680), (0x2000, 0x200a),
   (0x2028, 0x2029), (0x202f, 0x202f), (0x205f, 0x205f), (0x3000, 0x3000)]

/-- A character that separates tokens and is trimmed from the ends of a text. -/
def isBlank (c : CodePoint) : Bool := inRanges blankRanges c

def isLineBreak (c : CodePoint) : Bool := c == '\n' || c == '\r'

theorem isBlank_of_isLineBreak {c : CodePoint} (breaks : isLineBreak c = true) :
    isBlank c = true := by
  simp only [isLineBreak, Bool.or_eq_true, beq_iff_eq] at breaks
  rcases breaks with rfl | rfl <;> decide

end Inlay
