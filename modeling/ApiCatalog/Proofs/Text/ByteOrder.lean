import Mathlib.Data.List.Dedup
import Mathlib.Data.List.Sort
import Mathlib.Data.String.Basic
import Mathlib.Tactic.SplitIfs
import ApiCatalog.Text.Utf8

/-!
# Order of texts and order of octets

Texts are compared character by character. This is the order of their UTF-8 octets: the lead octet
of a longer sequence is greater, and sequences of one length compare like their code points.

- `Utf8.encode_eq`           : the octets of a text, character by character
- `Utf8.encode_lt_encode`    : a smaller text has smaller octets
- `Utf8.sorted`              : texts in the order of their octets
-/

namespace ApiCatalog
namespace Utf8

/-! ## Octets of a text -/

theorem toList_loop (bytes : ByteArray) (i : Nat) (read : Octets) :
    ByteArray.toList.loop bytes i read = read.reverse ++ bytes.data.toList.drop i := by
  -- what has been read is kept in reverse, and `i` octets have been read
  fun_induction ByteArray.toList.loop bytes i read with
  | case1 i read more ih =>
      have inside : i < bytes.data.toList.length := by simpa using more
      rw [ih, List.drop_eq_getElem_cons inside]
      simp [ByteArray.get!, more]
  | case2 i read done =>
      have outside : bytes.data.toList.length ≤ i := by simpa using Nat.le_of_not_lt done
      simp [List.drop_eq_nil_of_le outside]

theorem encode_eq (s : String) : encode s = s.toList.flatMap String.utf8EncodeChar := by
  have octets : s.toUTF8 = (s.toList.flatMap String.utf8EncodeChar).toByteArray := by
    rw [String.toUTF8_eq_toByteArray, ← String.utf8Encode_toList, List.utf8Encode]
  unfold encode
  rw [octets, ByteArray.toList, toList_loop]
  simp

/-! ## Comparison -/

theorem toNat_octet {n : Nat} (h : n < 256) : (UInt8.ofNat n).toNat = n :=
  UInt8.toNat_ofNat_of_lt' h

/-- Code points compare like their digits in base 64, the highest first. -/
theorem digits_lt {m n : Nat} (h : m < n) (top : n < 1114112) :
    m / 262144 % 8 < n / 262144 % 8 ∨ m / 262144 % 8 = n / 262144 % 8 ∧
      (m / 4096 % 64 < n / 4096 % 64 ∨ m / 4096 % 64 = n / 4096 % 64 ∧
        (m / 64 % 64 < n / 64 % 64 ∨ m / 64 % 64 = n / 64 % 64 ∧ m % 64 < n % 64)) := by
  -- the first digit is never cut off
  have lead (k : Nat) (small : k < 1114112) : k / 262144 % 8 = k / 262144 := by omega
  rw [lead m (by omega), lead n top]
  omega

/-- Sequences are compared whatever follows them, so none is the start of another. -/
theorem encodeChar_lt_encodeChar {c d : Char} (h : c < d) (s t : Octets) :
    String.utf8EncodeChar c ++ s < String.utf8EncodeChar d ++ t := by
  have lt : c.val.toNat < d.val.toNat := h
  have top : d.val.toNat < 1114112 := by
    have valid := d.valid
    simp only [UInt32.isValidChar, Nat.isValidChar] at valid
    omega
  have digits := digits_lt lt top
  -- of the pairs of lengths ten remain; in each the first octets that differ decide
  unfold String.utf8EncodeChar
  dsimp only
  split_ifs <;>
    simp (disch := omega) only [List.cons_append, List.nil_append, List.cons_lt_cons_iff,
      UInt8.lt_iff_toNat_lt, ← UInt8.toNat_inj, toNat_octet] <;>
    omega

theorem encode_lt_encode {a b : String} (h : a < b) : encode a < encode b := by
  have chars : a.toList < b.toList := String.lt_iff.1 h
  rw [encode_eq, encode_eq]
  -- from here on by the characters of both texts
  generalize a.toList = s at chars
  generalize b.toList = t at chars
  induction s generalizing t with
  | nil =>
      cases t with
      | nil => exact absurd chars (List.not_lt_nil [])
      | cons d t =>
          have filled : String.utf8EncodeChar d ≠ [] := String.utf8EncodeChar_ne_nil
          obtain ⟨b, bs, split⟩ := List.exists_cons_of_ne_nil filled
          simp [split]
  | cons c s ih =>
      cases t with
      | nil => exact absurd chars (List.not_lt_nil _)
      | cons d t =>
          rw [List.flatMap_cons, List.flatMap_cons]
          rcases List.cons_lt_cons_iff.1 chars with lt | ⟨rfl, rest⟩
          · exact encodeChar_lt_encodeChar lt _ _
          · exact List.append_left_lt (ih t rest)

/-! ## Sorting -/

/-- The texts of a list in the order of their octets, each of them once. -/
def sorted (texts : List String) : List String :=
  texts.dedup.mergeSort fun a b => encode a ≤ encode b

theorem mem_sorted {texts : List String} {c : String} : c ∈ sorted texts ↔ c ∈ texts := by
  rw [sorted, List.mem_mergeSort, List.mem_dedup]

theorem pairwise_sorted (texts : List String) :
    (sorted texts).Pairwise fun a b => encode a < encode b := by
  have ordered : (sorted texts).Pairwise fun a b => encode a ≤ encode b := by
    have pairs : (sorted texts).Pairwise fun a b => decide (encode a ≤ encode b) = true := by
      refine List.pairwise_mergeSort (fun a b c ab bc => ?_) (fun a b => ?_) texts.dedup
      · simp only [decide_eq_true_eq] at ab bc ⊢
        exact List.le_trans ab bc
      · simp only [Bool.or_eq_true, decide_eq_true_eq]
        exact List.le_total _ _
    exact pairs.imp fun le => of_decide_eq_true le
  have distinct : (sorted texts).Nodup :=
    (List.mergeSort_perm _ _).nodup_iff.2 (List.nodup_dedup texts)
  -- different texts have different octets, so nothing compares equal
  refine (ordered.and distinct).imp ?_
  rintro a b ⟨le, ne⟩
  rcases lt_trichotomy a b with lt | same | gt
  · exact encode_lt_encode lt
  · exact absurd same ne
  · exact absurd (encode_lt_encode gt) (List.not_lt.2 le)

/-- An increasing list is sorted by octets as it stands. -/
theorem eq_sorted {texts increasing : List String} (h : increasing.Pairwise (· < ·))
    (same : ∀ c, c ∈ increasing ↔ c ∈ texts) : increasing = sorted texts := by
  have octets : increasing.Pairwise fun a b => encode a < encode b :=
    h.imp fun lt => encode_lt_encode lt
  have irreflexive : Std.Irrefl fun a b : String => encode a < encode b :=
    ⟨fun a => List.lt_irrefl (encode a)⟩
  have antisymmetric : Std.Antisymm fun a b : String => encode a < encode b :=
    ⟨fun _ _ ab ba => absurd ba (List.lt_asymm ab)⟩
  refine List.Pairwise.eq_of_mem_iff octets (pairwise_sorted texts) fun c => ?_
  rw [same, mem_sorted]

end Utf8
end ApiCatalog
