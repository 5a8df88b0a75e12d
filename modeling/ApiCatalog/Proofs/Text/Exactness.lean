import ApiCatalog.Proofs.Text.Decoding

/-!
# Octets that are a text

Only the octets of a text are read, and they are read as that text: there is one way to write each
character. So octets are no text exactly when reading them fails.

- `Utf8.encodeChar_two`, … : the sequence of a character from the octets that were read
- `Utf8.front?_scalar`     : what is read at the front is the sequence of a character
- `Utf8.decode_eq_ok_iff`  : reading and writing undo one another
- `Utf8.IsText`            : octets that some text is written to
-/

namespace ApiCatalog
namespace Utf8

/-! ## One character -/

theorem toNat_val_ofNat {n : Nat} (valid : n < 0xD800 ∨ 0xDFFF < n ∧ n < 0x110000) :
    (Char.ofNat n).val.toNat = n := by
  have valid' : n.isValidChar := valid
  rw [Char.ofNat, dif_pos valid']
  rfl

theorem toNat_of_isContinuation {b : UInt8} (h : isContinuation b = true) :
    b.toNat = payload b + 0x80 ∧ payload b < 64 := by
  simp only [isContinuation, Bool.and_eq_true, decide_eq_true_eq, UInt8.le_iff_toNat_le,
    UInt8.lt_iff_toNat_lt, UInt8.reduceToNat] at h
  rw [payload]
  omega

/-- An octet in the range after a lead octet continues a sequence, and rules out what is overlong, a
surrogate or beyond the last code point. -/
theorem toNat_of_secondRange {b c : UInt8} (h : (secondRange b).1 ≤ c ∧ c ≤ (secondRange b).2) :
    c.toNat = payload c + 0x80 ∧ payload c < 64 ∧ (b = 0xE0 → 32 ≤ payload c) ∧
      (b = 0xED → payload c < 32) ∧ (b = 0xF0 → 16 ≤ payload c) ∧ (b = 0xF4 → payload c < 16) := by
  unfold secondRange at h
  rw [payload]
  split_ifs at h with e0 ed f0 f4 <;>
    simp only [UInt8.le_iff_toNat_le, UInt8.reduceToNat, ← UInt8.toNat_inj] at * <;>
    omega

/-- An octet is told by its number. -/
theorem octet_eq {n : Nat} {b : UInt8} (h : n = b.toNat) : UInt8.ofNat n = b := by
  rw [h, UInt8.ofNat_toNat]

variable {b c d e : UInt8}

theorem encodeChar_one (lead : b < 0x80) : String.utf8EncodeChar (.ofNat b.toNat) = [b] := by
  simp only [UInt8.lt_iff_toNat_lt, UInt8.reduceToNat] at lead
  unfold String.utf8EncodeChar
  dsimp only
  rw [toNat_val_ofNat (by omega), if_pos (by omega), UInt8.ofNat_toNat]

theorem encodeChar_two (lead : 0xC2 ≤ b ∧ b < 0xE0) (second : isContinuation c = true) :
    String.utf8EncodeChar (.ofNat (b.toNat % 32 * 64 + payload c)) = [b, c] := by
  have ⟨at_c, low_c⟩ := toNat_of_isContinuation second
  simp only [UInt8.le_iff_toNat_le, UInt8.lt_iff_toNat_lt, UInt8.reduceToNat] at lead
  unfold String.utf8EncodeChar
  dsimp only
  rw [toNat_val_ofNat (by omega), if_neg (by omega), if_pos (by omega),
    octet_eq (b := b) (by omega), octet_eq (b := c) (by omega)]

theorem encodeChar_three (lead : 0xE0 ≤ b ∧ b < 0xF0)
    (second : (secondRange b).1 ≤ c ∧ c ≤ (secondRange b).2) (third : isContinuation d = true) :
    String.utf8EncodeChar (.ofNat (b.toNat % 16 * 4096 + payload c * 64 + payload d)) =
      [b, c, d] := by
  obtain ⟨at_c, low_c, e0, ed, -, -⟩ := toNat_of_secondRange second
  have ⟨at_d, low_d⟩ := toNat_of_isContinuation third
  simp only [UInt8.le_iff_toNat_le, UInt8.lt_iff_toNat_lt, ← UInt8.toNat_inj,
    UInt8.reduceToNat] at lead e0 ed
  unfold String.utf8EncodeChar
  dsimp only
  rw [toNat_val_ofNat (by omega), if_neg (by omega), if_neg (by omega), if_pos (by omega),
    octet_eq (b := b) (by omega), octet_eq (b := c) (by omega), octet_eq (b := d) (by omega)]

theorem encodeChar_four (lead : 0xF0 ≤ b ∧ b < 0xF5)
    (second : (secondRange b).1 ≤ c ∧ c ≤ (secondRange b).2) (third : isContinuation d = true)
    (fourth : isContinuation e = true) :
    String.utf8EncodeChar
      (.ofNat (b.toNat % 8 * 262144 + payload c * 4096 + payload d * 64 + payload e)) =
      [b, c, d, e] := by
  obtain ⟨at_c, low_c, -, -, f0, f4⟩ := toNat_of_secondRange second
  have ⟨at_d, low_d⟩ := toNat_of_isContinuation third
  have ⟨at_e, low_e⟩ := toNat_of_isContinuation fourth
  simp only [UInt8.le_iff_toNat_le, UInt8.lt_iff_toNat_lt, ← UInt8.toNat_inj,
    UInt8.reduceToNat] at lead f0 f4
  unfold String.utf8EncodeChar
  dsimp only
  rw [toNat_val_ofNat (by omega), if_neg (by omega), if_neg (by omega), if_neg (by omega),
    octet_eq (b := b) (by omega), octet_eq (b := c) (by omega), octet_eq (b := d) (by omega),
    octet_eq (b := e) (by omega)]

/-! ## The front of octets -/

variable {bytes rest : Octets}

theorem eq_nil_of_front? (h : front? bytes = none) : bytes = [] := by
  cases bytes with
  | nil => rfl
  | cons b tail =>
      -- every branch reads something, or tells what is wrong
      simp only [front?] at h
      repeat' split at h
      all_goals cases h

/-- What is read at the front is the sequence of a character. -/
theorem front?_scalar {x : Char} (h : front? bytes = some (.scalar x rest)) :
    bytes = String.utf8EncodeChar x ++ rest := by
  cases bytes with
  | nil => cases h
  | cons b tail =>
      unfold front? at h
      simp only [Bool.and_eq_true, decide_eq_true_eq] at h
      -- one case for each length of a sequence; in each, an octet that is missing or out of place
      -- leaves nothing that was read
      split_ifs at h with one two three four
      · cases h
        rw [encodeChar_one one]
        rfl
      · rcases tail with _ | ⟨c, tail⟩
        · cases h
        · dsimp only at h
          split_ifs at h with second
          · cases h
            rw [encodeChar_two two second]
            rfl
          · cases h
      · rcases tail with _ | ⟨c, _ | ⟨d, tail⟩⟩
        · cases h
        · dsimp only at h
          split_ifs at h <;> cases h
        · dsimp only at h
          split_ifs at h with second third
          · cases h
            rw [encodeChar_three three second third]
            rfl
          · cases h
          · cases h
      · rcases tail with _ | ⟨c, _ | ⟨d, _ | ⟨e, tail⟩⟩⟩
        · cases h
        · dsimp only at h
          split_ifs at h <;> cases h
        · dsimp only at h
          split_ifs at h <;> cases h
        · dsimp only at h
          split_ifs at h with second third fourth
          · cases h
            rw [encodeChar_four four second third fourth]
            rfl
          · cases h
          · cases h
          · cases h
      · cases h

/-! ## Whole octets -/

theorem eq_of_decodeFrom {fuel index : Nat} {chars : List Char} (enough : bytes.length ≤ fuel)
    (h : decodeFrom fuel index bytes = .ok chars) :
    bytes = chars.flatMap String.utf8EncodeChar := by
  induction fuel generalizing bytes index chars with
  | zero =>
      cases h
      exact List.eq_nil_of_length_eq_zero (Nat.le_zero.1 enough)
  | succ fuel ih =>
      unfold decodeFrom at h
      split at h
      · next none =>
          cases h
          exact eq_nil_of_front? none
      · next x rest front =>
          have read := front?_scalar front
          cases later : decodeFrom fuel (index + x.utf8Size) rest with
          | error fault => simp [later, bind, Except.bind] at h
          | ok tail =>
              simp only [later, bind, Except.bind] at h
              cases h
              have shorter : rest.length ≤ fuel := by
                have filled := List.length_pos_iff.2 (String.utf8EncodeChar_ne_nil (c := x))
                rw [read, List.length_append] at enough
                omega
              rw [List.flatMap_cons, ← ih shorter later]
              exact read
      · cases h
      · cases h

variable {s : String}

theorem eq_encode_of_decode (h : decode bytes = .ok s) : bytes = encode s := by
  unfold decode at h
  cases read : decodeFrom bytes.length 0 bytes with
  | error fault => simp [read, bind, Except.bind] at h
  | ok chars =>
      simp only [read, bind, Except.bind] at h
      cases h
      rw [encode_eq, String.toList_ofList]
      exact eq_of_decodeFrom (Nat.le_refl _) read

/-- Reading and writing undo one another. -/
theorem decode_eq_ok_iff : decode bytes = .ok s ↔ bytes = encode s := by
  constructor
  · exact eq_encode_of_decode
  · rintro rfl
    exact decode_octets s

/-- Octets that some text is written to. -/
def IsText (bytes : Octets) : Prop :=
  ∃ s, bytes = encode s

/-- Octets that are no text are refused, and no others. -/
theorem exists_fault_iff : (∃ fault, decode bytes = .error fault) ↔ ¬IsText bytes := by
  unfold IsText
  simp only [← decode_eq_ok_iff]
  cases decode bytes <;> simp

end Utf8
end ApiCatalog
