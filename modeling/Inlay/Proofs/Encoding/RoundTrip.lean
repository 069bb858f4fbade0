import Inlay.Encoding.Codec

/-!
# Encoded texts

What an encoding writes for a text is read back as this text (`Encoding.decode_of_encode`). The
encodings of Unicode refuse halves of characters, so a text that was written consists of
characters. Bytes that are read in UTF-8 are those that are written for their text
(`Utf8.encode_of_decodeFrom`).
-/

set_option autoImplicit false

namespace Inlay

/-- No code point of the text is a half of a character. -/
def IsWhole (text : Text) : Prop := ∀ c ∈ text, c.isHalf = false

theorem exists_char_of_not_half {c : CodePoint} (whole : c.isHalf = false) :
    ∃ d : Char, c = .char d := by
  cases c with
  | char d => exact ⟨d, rfl⟩
  | half index => cases whole

theorem toNat_of_not_half {c : CodePoint} (whole : c.isHalf = false) :
    ¬ (0xd800 ≤ c.toNat ∧ c.toNat < 0xe000) := by
  intro between
  have half : c.isHalf = true := CodePoint.isHalf_iff.mpr between
  rw [whole] at half
  cases half

-- The bound is written out because omega does not look into the size of a byte.
theorem toNat_byte {n : Nat} (bound : n < 256) : (UInt8.ofNat n).toNat = n :=
  UInt8.toNat_ofNat_of_lt bound

namespace Utf8

variable {position : Nat} {text : Text}

theorem firstHalves?_eq_none_iff {passes : CodePoint → Bool} :
    firstHalves? passes position text = none ↔ ∀ c ∈ text, (!c.isHalf || passes c) = true := by
  induction text generalizing position with
  | nil => simp [firstHalves?]
  | cons c text ih =>
      cases half : c.isHalf <;> cases pass : passes c <;> simp [firstHalves?, half, pass, ih]

theorem isWhole_of_firstHalves? (none : firstHalves? (fun _ => false) position text = none) :
    IsWhole text := by
  intro c member
  simpa using firstHalves?_eq_none_iff.mp none c member

theorem char_lt (c : Char) : c.toNat < 0x110000 := by
  have valid := c.valid
  simp only [UInt32.isValidChar, Nat.isValidChar] at valid
  change c.val.toNat < _
  omega

theorem isContinuation_iff {byte : UInt8} :
    isContinuation byte = true ↔ 0x80 ≤ byte.toNat ∧ byte.toNat ≤ 0xbf := by
  simp [isContinuation, UInt8.le_iff_toNat_le]

/-- A byte that continues a character follows a first byte unless the two would spell a character
too long, a half of one, or none. -/
theorem mayFollow_of_isContinuation {first second : UInt8}
    (continues : isContinuation second = true)
    (short : first.toNat = 0xe0 → 0xa0 ≤ second.toNat)
    (whole : first.toNat = 0xed → second.toNat ≤ 0x9f)
    (shorter : first.toNat = 0xf0 → 0x90 ≤ second.toNat)
    (coded : first.toNat = 0xf4 → second.toNat ≤ 0x8f) : mayFollow first second = true := by
  have bounds := isContinuation_iff.mp continues
  unfold mayFollow
  split
  · next same =>
      have lower := short (congrArg UInt8.toNat same)
      simp only [Bool.and_eq_true, decide_eq_true_eq, UInt8.le_iff_toNat_le]
      exact ⟨lower, bounds.2⟩
  · split
    · next same =>
        have upper := whole (congrArg UInt8.toNat same)
        simp only [Bool.and_eq_true, decide_eq_true_eq, UInt8.le_iff_toNat_le]
        exact ⟨bounds.1, upper⟩
    · split
      · next same =>
          have lower := shorter (congrArg UInt8.toNat same)
          simp only [Bool.and_eq_true, decide_eq_true_eq, UInt8.le_iff_toNat_le]
          exact ⟨lower, bounds.2⟩
      · split
        · next same =>
            have upper := coded (congrArg UInt8.toNat same)
            simp only [Bool.and_eq_true, decide_eq_true_eq, UInt8.le_iff_toNat_le]
            exact ⟨bounds.1, upper⟩
        · exact continues

/-! One equation for each number of bytes that a character may have. -/

section Widths

variable {first second third fourth : UInt8} {more : List UInt8}

theorem decodeFrom_one (low : first.toNat < 0x80) :
    decodeFrom position (first :: more) =
      consDecoded (.ofNat first.toNat) (decodeFrom (position + 1) more) := by
  rw [decodeFrom.eq_def]
  exact if_pos (UInt8.lt_iff_toNat_lt.mpr low)

theorem decodeFrom_two (range : 0xc2 ≤ first.toNat ∧ first.toNat < 0xe0)
    (continues : isContinuation second = true) :
    decodeFrom position (first :: second :: more) =
      consDecoded (.ofNat (first.toNat % 32 * 64 + payload second))
        (decodeFrom (position + 2) more) := by
  rw [decodeFrom.eq_def]
  simp only [UInt8.lt_iff_toNat_lt]
  rw [if_neg (by simp; omega), if_neg (by simp; omega), if_pos (by simp; omega), if_pos continues]

theorem decodeFrom_three (range : 0xe0 ≤ first.toNat ∧ first.toNat < 0xf0)
    (follows : mayFollow first second = true) (continues : isContinuation third = true) :
    decodeFrom position (first :: second :: third :: more) =
      consDecoded (.ofNat ((first.toNat % 16 * 64 + payload second) * 64 + payload third))
        (decodeFrom (position + 3) more) := by
  rw [decodeFrom.eq_def]
  simp only [UInt8.lt_iff_toNat_lt]
  rw [if_neg (by simp; omega), if_neg (by simp; omega), if_neg (by simp; omega),
    if_pos (by simp; omega), if_pos follows, if_pos continues]

theorem decodeFrom_four (range : 0xf0 ≤ first.toNat ∧ first.toNat < 0xf5)
    (follows : mayFollow first second = true) (continues : isContinuation third = true)
    (ends : isContinuation fourth = true) :
    decodeFrom position (first :: second :: third :: fourth :: more) =
      consDecoded (.ofNat (((first.toNat % 8 * 64 + payload second) * 64 + payload third) * 64
        + payload fourth)) (decodeFrom (position + 4) more) := by
  rw [decodeFrom.eq_def]
  simp only [UInt8.lt_iff_toNat_lt]
  rw [if_neg (by simp; omega), if_neg (by simp; omega), if_neg (by simp; omega),
    if_neg (by simp; omega), if_pos (by simp; omega), if_pos follows, if_pos continues,
    if_pos ends]

end Widths

theorem decodeFrom_encodeChar (c : Char) (position : Nat) (rest : List UInt8) :
    ∃ next, decodeFrom position (encodeChar c ++ rest) =
      consDecoded (.char c) (decodeFrom next rest) := by
  have bound := char_lt c
  have whole : ¬ (0xd800 ≤ c.toNat ∧ c.toNat < 0xe000) := toNat_of_not_half (c := .char c) rfl
  have back : CodePoint.ofNat c.toNat = .char c := CodePoint.ofNat_toNat (.char c)
  unfold encodeChar
  generalize c.toNat = n at *
  -- The last byte and the one before it are the same for all characters that have them.
  have last := toNat_byte (n := 0x80 + n % 64) (by omega)
  have middle := toNat_byte (n := 0x80 + n / 64 % 64) (by omega)
  have lastContinues : isContinuation (UInt8.ofNat (0x80 + n % 64)) = true :=
    isContinuation_iff.mpr (by omega)
  have middleContinues : isContinuation (UInt8.ofNat (0x80 + n / 64 % 64)) = true :=
    isContinuation_iff.mpr (by omega)
  dsimp only
  split
  · next one =>
      have first := toNat_byte (n := n) (by omega)
      refine ⟨position + 1, (decodeFrom_one (by omega)).trans ?_⟩
      rw [first, back]
      rfl
  · split
    · next two =>
        have first := toNat_byte (n := 0xc0 + n / 64) (by omega)
        have code : (0xc0 + n / 64) % 32 * 64 + (0x80 + n % 64) % 64 = n := by omega
        refine ⟨position + 2, (decodeFrom_two (by omega) lastContinues).trans ?_⟩
        rw [payload, first, last, code, back]
        rfl
    · split
      · next three =>
          have first := toNat_byte (n := 0xe0 + n / 4096) (by omega)
          have follows : mayFollow (UInt8.ofNat (0xe0 + n / 4096))
              (UInt8.ofNat (0x80 + n / 64 % 64)) = true :=
            mayFollow_of_isContinuation middleContinues (by omega) (by omega) (by omega) (by omega)
          have code : ((0xe0 + n / 4096) % 16 * 64 + (0x80 + n / 64 % 64) % 64) * 64 +
              (0x80 + n % 64) % 64 = n := by omega
          refine ⟨position + 3, (decodeFrom_three (by omega) follows lastContinues).trans ?_⟩
          rw [payload, payload, first, middle, last, code, back]
          rfl
      · next four =>
          have first := toNat_byte (n := 0xf0 + n / 262144) (by omega)
          have second := toNat_byte (n := 0x80 + n / 4096 % 64) (by omega)
          have continues : isContinuation (UInt8.ofNat (0x80 + n / 4096 % 64)) = true :=
            isContinuation_iff.mpr (by omega)
          have follows : mayFollow (UInt8.ofNat (0xf0 + n / 262144))
              (UInt8.ofNat (0x80 + n / 4096 % 64)) = true :=
            mayFollow_of_isContinuation continues (by omega) (by omega) (by omega) (by omega)
          have code : (((0xf0 + n / 262144) % 8 * 64 + (0x80 + n / 4096 % 64) % 64) * 64 +
              (0x80 + n / 64 % 64) % 64) * 64 + (0x80 + n % 64) % 64 = n := by omega
          refine ⟨position + 4,
            (decodeFrom_four (by omega) follows middleContinues lastContinues).trans ?_⟩
          rw [payload, payload, payload, first, second, middle, last, code, back]
          rfl

theorem decodeFrom_encode (whole : IsWhole text) :
    ∀ position, decodeFrom position (encode text) = .ok text := by
  induction text with
  | nil => exact fun _ => rfl
  | cons c text ih =>
      intro position
      obtain ⟨d, rfl⟩ := exists_char_of_not_half (whole c (.head _))
      obtain ⟨next, first⟩ := decodeFrom_encodeChar d position (encode text)
      have later := ih (fun e member => whole e (.tail _ member)) next
      exact first.trans (by rw [later]; rfl)

theorem encodeWhole_eq_ok {bytes : List UInt8} (encoded : encodeWhole text = .ok bytes) :
    IsWhole text ∧ bytes = encode text := by
  unfold encodeWhole at encoded
  split at encoded
  · cases encoded
  · next none =>
      cases encoded
      exact ⟨isWhole_of_firstHalves? none, rfl⟩

theorem decodeMarked_mark_append (bytes : List UInt8) :
    decodeMarked (mark ++ bytes) = decode bytes := by
  have long : ¬ ((decide ((mark ++ bytes).length < mark.length) &&
      (mark ++ bytes).isPrefixOf mark) = true) := by
    intro short
    simp only [List.length_append, Bool.and_eq_true, decide_eq_true_eq] at short
    omega
  have marked : mark.isPrefixOf (mark ++ bytes) = true := by simp
  unfold decodeMarked
  rw [if_neg long, if_pos marked, List.drop_left]

/-! One equation for each number of bytes, for what is written of a character that was read. -/

section Spellings

variable {first second third fourth : UInt8}

theorem mayFollow_bounds (follows : mayFollow first second = true) :
    (0x80 ≤ second.toNat ∧ second.toNat ≤ 0xbf) ∧
      (first.toNat = 0xe0 → 0xa0 ≤ second.toNat) ∧
      (first.toNat = 0xed → second.toNat ≤ 0x9f) ∧
      (first.toNat = 0xf0 → 0x90 ≤ second.toNat) ∧
      (first.toNat = 0xf4 → second.toNat ≤ 0x8f) := by
  simp only [mayFollow, isContinuation, ← UInt8.toNat_inj] at follows
  repeat' split at follows
  all_goals
    simp only [Bool.and_eq_true, decide_eq_true_eq, UInt8.le_iff_toNat_le, UInt8.reduceToNat]
      at *
    omega

theorem exists_char_of_code (code : Nat) (bound : code < 0x110000)
    (whole : ¬ (0xd800 ≤ code ∧ code < 0xe000)) :
    ∃ c : Char, CodePoint.ofNat code = .char c ∧ c.toNat = code := by
  have back := CodePoint.toNat_ofNat bound
  have apart : (CodePoint.ofNat code).isHalf = false := by
    rw [← Bool.not_eq_true, CodePoint.isHalf_iff, back]
    exact whole
  obtain ⟨c, same⟩ := exists_char_of_not_half apart
  rw [same] at back
  exact ⟨c, same, back⟩

theorem ofNat_eq_byte (byte : UInt8) {n : Nat} (same : n = byte.toNat) : UInt8.ofNat n = byte := by
  rw [same, UInt8.ofNat_toNat]

theorem encode_one (low : first.toNat < 0x80) :
    encodeCodePoint (.ofNat first.toNat) = [first] := by
  obtain ⟨c, same, code⟩ := exists_char_of_code first.toNat (by omega) (by omega)
  rw [same, encodeCodePoint, encodeChar, code, if_pos low, UInt8.ofNat_toNat]

theorem encode_two (range : 0xc2 ≤ first.toNat ∧ first.toNat < 0xe0)
    (continues : isContinuation second = true) :
    encodeCodePoint (.ofNat (first.toNat % 32 * 64 + payload second)) = [first, second] := by
  have bounds := isContinuation_iff.mp continues
  unfold payload
  generalize written : first.toNat % 32 * 64 + second.toNat % 64 = n
  obtain ⟨c, same, code⟩ := exists_char_of_code n (by omega) (by omega)
  rw [same, encodeCodePoint, encodeChar, code, if_neg (by omega), if_pos (by omega),
    ofNat_eq_byte first (by omega), ofNat_eq_byte second (by omega)]

theorem encode_three (range : 0xe0 ≤ first.toNat ∧ first.toNat < 0xf0)
    (follows : mayFollow first second = true) (continues : isContinuation third = true) :
    encodeCodePoint (.ofNat ((first.toNat % 16 * 64 + payload second) * 64 + payload third)) =
      [first, second, third] := by
  have bounds := mayFollow_bounds follows
  have last := isContinuation_iff.mp continues
  unfold payload
  generalize written :
    (first.toNat % 16 * 64 + second.toNat % 64) * 64 + third.toNat % 64 = n
  obtain ⟨c, same, code⟩ := exists_char_of_code n (by omega) (by omega)
  rw [same, encodeCodePoint, encodeChar, code, if_neg (by omega), if_neg (by omega),
    if_pos (by omega), ofNat_eq_byte first (by omega), ofNat_eq_byte second (by omega),
    ofNat_eq_byte third (by omega)]

theorem encode_four (range : 0xf0 ≤ first.toNat ∧ first.toNat < 0xf5)
    (follows : mayFollow first second = true) (continues : isContinuation third = true)
    (ends : isContinuation fourth = true) :
    encodeCodePoint (.ofNat (((first.toNat % 8 * 64 + payload second) * 64 + payload third) * 64
      + payload fourth)) = [first, second, third, fourth] := by
  have bounds := mayFollow_bounds follows
  have next := isContinuation_iff.mp continues
  have last := isContinuation_iff.mp ends
  unfold payload
  generalize written : ((first.toNat % 8 * 64 + second.toNat % 64) * 64 + third.toNat % 64) * 64
    + fourth.toNat % 64 = n
  obtain ⟨c, same, code⟩ := exists_char_of_code n (by omega) (by omega)
  rw [same, encodeCodePoint, encodeChar, code, if_neg (by omega), if_neg (by omega),
    if_neg (by omega), ofNat_eq_byte first (by omega), ofNat_eq_byte second (by omega),
    ofNat_eq_byte third (by omega), ofNat_eq_byte fourth (by omega)]

end Spellings

theorem encode_cons (c : CodePoint) (text : Text) :
    encode (c :: text) = encodeCodePoint c ++ encode text := rfl

theorem encode_append (front back : Text) : encode (front ++ back) = encode front ++ encode back :=
  List.flatMap_append

theorem consDecoded_eq_ok {c : CodePoint} {rest : Except DecodeFault Text}
    (decoded : consDecoded c rest = .ok text) :
    ∃ others, rest = .ok others ∧ text = c :: others := by
  cases rest with
  | error fault => cases decoded
  | ok others =>
      cases decoded
      exact ⟨others, rfl, rfl⟩

/-- Bytes that are read as a text are those that are written for it. -/
theorem encode_of_decodeFrom {bytes : List UInt8} (decoded : decodeFrom position bytes = .ok text) :
    encode text = bytes := by
  fun_induction decodeFrom position bytes generalizing text with
  | case1 =>
      cases decoded
      rfl
  | case2 _ _ _ low ih =>
      obtain ⟨others, later, rfl⟩ := consDecoded_eq_ok decoded
      rw [encode_cons, encode_one (UInt8.lt_iff_toNat_lt.mp low), ih later]
      rfl
  | case5 position first noAscii start two second more continues ih =>
      obtain ⟨others, later, rfl⟩ := consDecoded_eq_ok decoded
      rw [UInt8.lt_iff_toNat_lt] at start two
      rw [encode_cons, encode_two ⟨Nat.le_of_not_lt start, two⟩ continues, ih later]
      rfl
  | case9 position first noAscii start two three second follows third more continues ih =>
      obtain ⟨others, later, rfl⟩ := consDecoded_eq_ok decoded
      rw [UInt8.lt_iff_toNat_lt] at two three
      rw [encode_cons, encode_three ⟨Nat.le_of_not_lt two, three⟩ follows continues, ih later]
      rfl
  | case15 position first noAscii start two three four second follows third continues fourth more
      ends ih =>
      obtain ⟨others, later, rfl⟩ := consDecoded_eq_ok decoded
      rw [UInt8.lt_iff_toNat_lt] at three four
      rw [encode_cons, encode_four ⟨Nat.le_of_not_lt three, four⟩ follows continues ends, ih later]
      rfl
  | _ => cases decoded

end Utf8

namespace Utf16

variable {position : Nat} {text : Text}

theorem isWhole_of_firstHalf? (none : firstHalf? position text = none) : IsWhole text := by
  induction text generalizing position with
  | nil => exact fun _ member => absurd member List.not_mem_nil
  | cons c text ih =>
      unfold firstHalf? at none
      split at none
      · cases none
      · next whole =>
          intro d member
          rcases List.mem_cons.mp member with rfl | later
          · simpa using whole
          · exact ih none d later

section Widths

variable {first second third fourth : UInt8} {more : List UInt8} {order : ByteOrder}

theorem decodeFrom_one {unit : Nat} (read : order.unit first second = unit)
    (whole : ¬ (0xd800 ≤ unit ∧ unit < 0xe000)) :
    decodeFrom order position (first :: second :: more) =
      consDecoded (.ofNat unit) (decodeFrom order (position + 2) more) := by
  have noHigh : ¬ isHighSurrogate unit = true := by
    simp only [isHighSurrogate, Bool.and_eq_true, decide_eq_true_eq]
    omega
  have noLow : ¬ isLowSurrogate unit = true := by
    simp only [isLowSurrogate, Bool.and_eq_true, decide_eq_true_eq]
    omega
  rw [decodeFrom.eq_def]
  dsimp only
  rw [read, if_neg noHigh, if_neg noLow]

theorem decodeFrom_two {high low : Nat} (highRead : order.unit first second = 0xd800 + high)
    (lowRead : order.unit third fourth = 0xdc00 + low) (highBound : high < 0x400)
    (lowBound : low < 0x400) :
    decodeFrom order position (first :: second :: third :: fourth :: more) =
      consDecoded (.ofNat (0x10000 + high * 0x400 + low))
        (decodeFrom order (position + 4) more) := by
  have isHigh : isHighSurrogate (0xd800 + high) = true := by
    simp only [isHighSurrogate, Bool.and_eq_true, decide_eq_true_eq]
    omega
  have isLow : isLowSurrogate (0xdc00 + low) = true := by
    simp only [isLowSurrogate, Bool.and_eq_true, decide_eq_true_eq]
    omega
  rw [decodeFrom.eq_def]
  dsimp only
  rw [highRead, lowRead, if_pos isHigh, if_pos isLow, Nat.add_sub_cancel_left,
    Nat.add_sub_cancel_left]

end Widths

theorem encodeWhole_eq_ok {bytes : List UInt8} (encoded : encodeWhole text = .ok bytes) :
    IsWhole text ∧ bytes = encode text := by
  unfold encodeWhole at encoded
  split at encoded
  · cases encoded
  · next none =>
      cases encoded
      exact ⟨isWhole_of_firstHalf? none, rfl⟩

theorem unit_unitBytes {unit : Nat} (bound : unit < 0x10000) :
    ByteOrder.littleEndian.unit (UInt8.ofNat (unit % 256)) (UInt8.ofNat (unit / 256)) = unit := by
  have low := toNat_byte (n := unit % 256) (by omega)
  have high := toNat_byte (n := unit / 256) (by omega)
  rw [ByteOrder.unit, low, high]
  omega

theorem decodeFrom_encodeChar {c : CodePoint} (whole : c.isHalf = false) (position : Nat)
    (rest : List UInt8) :
    ∃ next, decodeFrom .littleEndian position (encodeChar c ++ rest) =
      consDecoded c (decodeFrom .littleEndian next rest) := by
  obtain ⟨d, rfl⟩ := exists_char_of_not_half whole
  have between := toNat_of_not_half whole
  have bound : CodePoint.toNat (.char d) < 0x110000 := Utf8.char_lt d
  have back := CodePoint.ofNat_toNat (.char d)
  unfold encodeChar
  generalize CodePoint.toNat (.char d) = n at *
  split
  · next one =>
      refine ⟨position + 2, (decodeFrom_one (unit_unitBytes one) between).trans ?_⟩
      rw [back]
      rfl
  · next two =>
      have high : 0xd800 + (n - 0x10000) / 0x400 < 0x10000 := by omega
      have low : 0xdc00 + (n - 0x10000) % 0x400 < 0x10000 := by omega
      have code : 0x10000 + (n - 0x10000) / 0x400 * 0x400 + (n - 0x10000) % 0x400 = n := by omega
      refine ⟨position + 4, (decodeFrom_two (unit_unitBytes high) (unit_unitBytes low)
        (by omega) (by omega)).trans ?_⟩
      rw [code, back]
      rfl

theorem decodeFrom_flatMap {text : Text} (whole : IsWhole text) :
    ∀ position, decodeFrom .littleEndian position (text.flatMap encodeChar) = .ok text := by
  induction text with
  | nil => exact fun _ => rfl
  | cons c text ih =>
      intro position
      obtain ⟨next, first⟩ :=
        decodeFrom_encodeChar (whole c (.head _)) position (text.flatMap encodeChar)
      have later := ih (fun d member => whole d (.tail _ member)) next
      exact first.trans (by rw [later]; rfl)

end Utf16

namespace Encoding

variable {text : Text} {bytes : List UInt8} {code : String} {limit : Nat}

theorem decodeSingle_of_encodeSingle (few : limit ≤ 256) {start : Nat}
    (encoded : encodeSingle code limit start text = .ok bytes) :
    ∀ position, decodeSingle code limit position bytes = .ok text := by
  induction text generalizing start bytes with
  | nil =>
      cases encoded
      exact fun _ => rfl
  | cons c text ih =>
      unfold encodeSingle at encoded
      split at encoded
      · next low =>
          split at encoded
          · next others later =>
              cases encoded
              intro position
              have byte := toNat_byte (n := c.toNat) (by omega)
              rw [decodeSingle, byte, if_pos low, ih later, CodePoint.ofNat_toNat]
              rfl
          · cases encoded
      · cases encoded

/-- What is written for a text is read as this text. -/
theorem decode_of_encode {encoding : Encoding} (encoded : encoding.encode text = .ok bytes) :
    encoding.decode bytes = .ok text := by
  cases encoding with
  | utf8 =>
      obtain ⟨whole, rfl⟩ := Utf8.encodeWhole_eq_ok encoded
      simp only [decode, Utf8.decode, Utf8.decodeFrom_encode whole, ofBytes]
  | markedUtf8 =>
      cases written : Utf8.encodeWhole text with
      | error fault =>
          rw [encode, written] at encoded
          cases encoded
      | ok inner =>
          rw [encode, written] at encoded
          cases encoded
          obtain ⟨whole, rfl⟩ := Utf8.encodeWhole_eq_ok written
          change ofBytes (Utf8.decodeMarked _) = _
          rw [Utf8.decodeMarked_mark_append, Utf8.decode, Utf8.decodeFrom_encode whole]
          rfl
  | latin1 => simp only [decode, decodeSingle_of_encodeSingle (Nat.le_refl 256) encoded, ofBytes]
  | ascii => simp only [decode, decodeSingle_of_encodeSingle (by omega) encoded, ofBytes]
  | utf16 =>
      obtain ⟨whole, rfl⟩ := Utf16.encodeWhole_eq_ok encoded
      change ofBytes (Utf16.decodeFrom .littleEndian 2 (text.flatMap Utf16.encodeChar)) = _
      rw [Utf16.decodeFrom_flatMap whole]
      rfl

/-- What is read in UTF-8 is written as the bytes that were read. -/
theorem encode_of_decode (decoded : Encoding.utf8.decode bytes = .ok text) :
    Utf8.encode text = bytes := by
  cases read : Utf8.decode bytes with
  | error fault =>
      rw [decode, read] at decoded
      cases decoded
  | ok own =>
      rw [decode, read] at decoded
      cases decoded
      exact Utf8.encode_of_decodeFrom read

end Encoding

/-- What the codec writes for a text is read as this text. -/
def Codec.ReadsBack (codec : Codec) : Prop :=
  ∀ text bytes, codec.encode text = .ok bytes → codec.decode bytes = .ok text

def Charset.ReadsBack (charset : Charset) : Prop :=
  ∀ codec, charset.codec = .ok codec → codec.ReadsBack

theorem Encoding.encode_of_codec {encoding : Encoding} {text : Text} {bytes : List UInt8}
    (encoded : encoding.codec.encode text = .ok bytes) : encoding.encode text = .ok bytes := by
  cases own : encoding.encode text with
  | error fault => simp [codec, own] at encoded
  | ok others => simpa [codec, own] using encoded

theorem Encoding.readsBack_codec (encoding : Encoding) : encoding.codec.ReadsBack :=
  fun _ _ encoded => decode_of_encode (encode_of_codec encoded)

theorem Codec.readsBack_common (name : Text) : Charset.ReadsBack ⟨name, Codec.common name⟩ := by
  intro codec known
  simp only [common] at known
  split at known
  · cases known
    exact Encoding.readsBack_codec _
  · cases known

end Inlay
