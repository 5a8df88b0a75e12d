import ApiCatalog.Proofs.Text.ByteOrder

/-!
# Texts from their own octets

The octets of a text are read back as the text. The lead octet of a sequence shows its length, and
neither the shortest form nor the range of characters is ever refused in what a text was written to.

- `Utf8.digit`             : an octet after the lead octet
- `Utf8.front?_encodeChar` : one character
- `Utf8.decode_octets`     : a whole text
-/

namespace ApiCatalog
namespace Utf8

/-! ## Octets of a sequence -/

/-- The last digit of `n` in base 64, as an octet after the lead octet. -/
def digit (n : Nat) : UInt8 :=
  .ofNat (n % 64 + 0x80)

theorem toNat_digit (n : Nat) : (digit n).toNat = n % 64 + 0x80 :=
  toNat_octet (by omega)

theorem isContinuation_digit (n : Nat) : isContinuation (digit n) = true := by
  simp only [isContinuation, Bool.and_eq_true, decide_eq_true_eq, UInt8.le_iff_toNat_le,
    UInt8.lt_iff_toNat_lt, toNat_digit, UInt8.reduceToNat]
  omega

theorem payload_digit (n : Nat) : payload (digit n) = n % 64 := by
  rw [payload, toNat_digit]
  omega

variable {v : Nat}

/-- No sequence of three is overlong, and none spells a surrogate. -/
theorem second_of_three (low : 0x7FF < v) (high : v ≤ 0xFFFF) (scalar : v < 0xD800 ∨ 0xDFFF < v) :
    (secondRange (.ofNat (v / 4096 % 16 + 0xE0))).1 ≤ digit (v / 64) ∧
      digit (v / 64) ≤ (secondRange (.ofNat (v / 4096 % 16 + 0xE0))).2 := by
  have lead : (UInt8.ofNat (v / 4096 % 16 + 0xE0)).toNat = v / 4096 % 16 + 0xE0 :=
    toNat_octet (by omega)
  unfold secondRange
  simp only [← UInt8.toNat_inj, lead]
  split_ifs <;>
    simp only [UInt8.le_iff_toNat_le, toNat_digit, UInt8.reduceToNat] at * <;>
    omega

/-- No sequence of four is overlong, and none goes beyond the last code point. -/
theorem second_of_four (low : 0xFFFF < v) (high : v < 0x110000) :
    (secondRange (.ofNat (v / 262144 % 8 + 0xF0))).1 ≤ digit (v / 4096) ∧
      digit (v / 4096) ≤ (secondRange (.ofNat (v / 262144 % 8 + 0xF0))).2 := by
  have lead : (UInt8.ofNat (v / 262144 % 8 + 0xF0)).toNat = v / 262144 % 8 + 0xF0 :=
    toNat_octet (by omega)
  unfold secondRange
  simp only [← UInt8.toNat_inj, lead]
  split_ifs <;>
    simp only [UInt8.le_iff_toNat_le, toNat_digit, UInt8.reduceToNat] at * <;>
    omega

/-! ## One character -/

variable (rest : Octets)

theorem front?_one (high : v ≤ 0x7F) :
    front? (.ofNat v :: rest) = some (.scalar (.ofNat v) rest) := by
  have lead : (UInt8.ofNat v).toNat = v := toNat_octet (by omega)
  have single : UInt8.ofNat v < 0x80 := by
    rw [UInt8.lt_iff_toNat_lt, lead]
    exact Nat.lt_succ_of_le high
  simp only [front?, single, lead, if_true]

theorem front?_two (low : 0x7F < v) (high : v ≤ 0x7FF) :
    front? (.ofNat (v / 64 % 32 + 0xC0) :: digit v :: rest) = some (.scalar (.ofNat v) rest) := by
  have lead : (UInt8.ofNat (v / 64 % 32 + 0xC0)).toNat = v / 64 % 32 + 0xC0 :=
    toNat_octet (by omega)
  have value : (v / 64 % 32 + 0xC0) % 32 * 64 + v % 64 = v := by omega
  simp (disch := omega) only [front?, UInt8.lt_iff_toNat_lt, UInt8.le_iff_toNat_le,
    UInt8.reduceToNat, Bool.and_eq_true, decide_eq_true_eq, if_neg, if_pos, if_true, lead,
    isContinuation_digit, payload_digit, value]

theorem front?_three (low : 0x7FF < v) (high : v ≤ 0xFFFF) (scalar : v < 0xD800 ∨ 0xDFFF < v) :
    front? (.ofNat (v / 4096 % 16 + 0xE0) :: digit (v / 64) :: digit v :: rest) =
      some (.scalar (.ofNat v) rest) := by
  have lead : (UInt8.ofNat (v / 4096 % 16 + 0xE0)).toNat = v / 4096 % 16 + 0xE0 :=
    toNat_octet (by omega)
  have second := second_of_three low high scalar
  have value : (v / 4096 % 16 + 0xE0) % 16 * 4096 + v / 64 % 64 * 64 + v % 64 = v := by omega
  simp only [UInt8.le_iff_toNat_le] at second
  simp (disch := omega) only [front?, UInt8.lt_iff_toNat_lt, UInt8.le_iff_toNat_le,
    UInt8.reduceToNat, Bool.and_eq_true, decide_eq_true_eq, if_neg, if_pos, if_true, lead,
    second, and_self, isContinuation_digit, payload_digit, value]

theorem front?_four (low : 0xFFFF < v) (high : v < 0x110000) :
    front? (.ofNat (v / 262144 % 8 + 0xF0) :: digit (v / 4096) :: digit (v / 64) :: digit v ::
      rest) = some (.scalar (.ofNat v) rest) := by
  have lead : (UInt8.ofNat (v / 262144 % 8 + 0xF0)).toNat = v / 262144 % 8 + 0xF0 :=
    toNat_octet (by omega)
  have second := second_of_four low high
  have value : (v / 262144 % 8 + 0xF0) % 8 * 262144 + v / 4096 % 64 * 4096 + v / 64 % 64 * 64 +
      v % 64 = v := by omega
  simp only [UInt8.le_iff_toNat_le] at second
  simp (disch := omega) only [front?, UInt8.lt_iff_toNat_lt, UInt8.le_iff_toNat_le,
    UInt8.reduceToNat, Bool.and_eq_true, decide_eq_true_eq, if_neg, if_pos, if_true, lead,
    second, and_self, isContinuation_digit, payload_digit, value]

/-- The sequence of a character is read back as the character, whatever follows it. -/
theorem front?_encodeChar (c : Char) :
    front? (String.utf8EncodeChar c ++ rest) = some (.scalar c rest) := by
  have valid : c.val.toNat < 0xD800 ∨ 0xDFFF < c.val.toNat ∧ c.val.toNat < 0x110000 := c.valid
  have same : Char.ofNat c.val.toNat = c := Char.ofNat_toNat c
  unfold String.utf8EncodeChar
  dsimp only
  -- one case for each length of a sequence
  split_ifs with one two three
  · rw [List.singleton_append, front?_one rest one, same]
  · exact (front?_two rest (by omega) two).trans (by rw [same])
  · exact (front?_three rest (by omega) three (by omega)).trans (by rw [same])
  · exact (front?_four rest (by omega) (by omega)).trans (by rw [same])

/-! ## Whole texts -/

theorem decodeFrom_flatMap (s : List Char) {fuel : Nat} (index : Nat) (enough : s.length ≤ fuel) :
    decodeFrom fuel index (s.flatMap String.utf8EncodeChar) = .ok s := by
  induction s generalizing fuel index with
  | nil => cases fuel <;> rfl
  | cons c s ih =>
      cases fuel with
      | zero => cases enough
      | succ fuel =>
          have later := ih (index + c.utf8Size) (Nat.le_of_succ_le_succ enough)
          rw [List.flatMap_cons, decodeFrom, front?_encodeChar]
          simp only [later]
          rfl

/-- Every character has an octet, so the octets are fuel enough. -/
theorem length_le_flatMap (s : List Char) :
    s.length ≤ (s.flatMap String.utf8EncodeChar).length := by
  induction s with
  | nil => exact Nat.le_refl 0
  | cons c s ih =>
      have filled := List.length_pos_iff.2 (String.utf8EncodeChar_ne_nil (c := c))
      rw [List.flatMap_cons, List.length_append, List.length_cons]
      omega

/-- The octets of a text are read back as the text. -/
theorem decode_octets (s : String) : decode (encode s) = .ok s := by
  have read := decodeFrom_flatMap s.toList 0 (length_le_flatMap s.toList)
  rw [decode, encode_eq, read]
  simp [bind, Except.bind, pure, Except.pure]

end Utf8
end ApiCatalog
