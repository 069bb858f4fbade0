/-!
# Code points

A text is a list of code points. Most code points are characters; the code `firstHalf` and the
ones behind it belong to the halves by which two codes of sixteen bits write one character. A
half that stands alone is no character, but a text may hold it. Code points and their codes
determine each other (`ofNat_toNat`, `toNat_ofNat`).
-/

set_option autoImplicit false

namespace Inlay

/-- A character, or a half of one, counted from the first half. -/
inductive CodePoint where
  | char (c : Char)
  | half (index : Fin 0x800)
deriving Repr, DecidableEq, Inhabited

namespace CodePoint

instance : Coe Char CodePoint := ⟨.char⟩

def firstHalf : Nat := 0xd800

def codes : Nat := 0x110000

def toNat : CodePoint → Nat
  | .char c => c.toNat
  | .half index => firstHalf + index

def ofNat (code : Nat) : CodePoint :=
  if half : code - firstHalf < 0x800 ∧ firstHalf ≤ code then .half ⟨code - firstHalf, half.1⟩
  else .char (Char.ofNat code)

def isHalf : CodePoint → Bool
  | .char _ => false
  | .half _ => true

theorem isHalf_iff {c : CodePoint} :
    c.isHalf = true ↔ firstHalf ≤ c.toNat ∧ c.toNat < firstHalf + 0x800 := by
  cases c with
  | char c =>
      have valid := c.valid
      simp only [isHalf, toNat, firstHalf, Bool.false_eq_true, false_iff]
      simp only [UInt32.isValidChar, Nat.isValidChar] at valid
      change ¬ (_ ≤ c.val.toNat ∧ c.val.toNat < _)
      omega
  | half index =>
      have bound := index.isLt
      simp only [isHalf, toNat, true_iff]
      omega

theorem ofNat_toNat (c : CodePoint) : ofNat c.toNat = c := by
  cases c with
  | char c =>
      have apart := isHalf_iff (c := .char c)
      simp only [isHalf, Bool.false_eq_true, toNat, false_iff] at apart
      rw [ofNat, toNat, dif_neg (by omega), Char.ofNat_toNat]
  | half index => simp [ofNat, toNat]

theorem toNat_ofNat {code : Nat} (bound : code < codes) : (ofNat code).toNat = code := by
  unfold ofNat
  split
  · next half =>
      simp only [toNat]
      omega
  · next apart =>
      have valid : code.isValidChar := by
        simp only [Nat.isValidChar, codes, firstHalf] at *
        omega
      rw [toNat, Char.ofNat, dif_pos valid]
      rfl

instance : LT CodePoint := ⟨fun c d => c.toNat < d.toNat⟩

instance : LE CodePoint := ⟨fun c d => c.toNat ≤ d.toNat⟩

instance : DecidableLT CodePoint := fun c d => inferInstanceAs (Decidable (c.toNat < d.toNat))

instance : DecidableLE CodePoint := fun c d => inferInstanceAs (Decidable (c.toNat ≤ d.toNat))

def isDigit : CodePoint → Bool
  | .char c => c.isDigit
  | .half _ => false

def isAlphanum : CodePoint → Bool
  | .char c => c.isAlphanum
  | .half _ => false

/-- The lower-case form of a capital among the first 128 characters; all else stays. -/
def toLower : CodePoint → CodePoint
  | .char c => .char c.toLower
  | .half index => .half index

end CodePoint

abbrev Text := List CodePoint

/-- The character that is shown for a code point. A half is shown as a lost character. -/
def CodePoint.shown : CodePoint → Char
  | .char c => c
  | .half _ => '\ufffd'

def Text.shown (text : Text) : String := String.ofList (text.map CodePoint.shown)

def Text.ofString (string : String) : Text := string.toList.map .char

@[simp]
theorem Text.ofString_eq_nil_iff {string : String} : ofString string = [] ↔ string = "" := by
  simp [ofString]

instance : Coe String Text := ⟨Text.ofString⟩

end Inlay
