import ApiCatalog.Proofs.Json.Scanning
import ApiCatalog.Wire

/-!
# Blank texts

A text without a character that is not blank spells no document of a cluster. Some blank characters
are no white space of JSON, so such a text ends too early or holds something that is no value.

- `Json.scan_blank`                : the outline of a blank text
- `Wire.Versions.decode_blank`, `Wire.GroupList.decode_blank` : what the roots serve is not blank
-/

namespace ApiCatalog

/-! ## Outlines -/

namespace Json

theorem isDigit_of_isBlank {c : Char} (blank : Text.isBlank c = true) : c.isDigit = false := by
  simp [Text.isBlank, Text.inRanges, Text.blankRanges] at blank
  simp [Char.isDigit, UInt32.le_iff_toNat_le] at *
  omega

/-- No value begins with a blank character. -/
theorem scanValue_foreign {s rest : List Char} {c : Char} (skipped : skipSpace s = c :: rest)
    (blank : Text.isBlank c = true) (fuel : Nat) :
    scanValue (fuel + 1) s = (.foreign, c :: rest) := by
  have no_digit : ¬c.isDigit = true := by simp [isDigit_of_isBlank blank]
  have visible : ∀ d ∈ ['n', 't', 'f', '"', '-', '[', '{'], Text.isBlank d = false := by
    simp [Text.isBlank, Text.inRanges, Text.blankRanges]
  have other : c ∉ ['n', 't', 'f', '"', '-', '[', '{'] := by
    intro mem
    simp [visible c mem] at blank
  rw [scanValue_other skipped other, if_neg no_digit]

theorem scan_blank {s : List Char} (blank : s.all Text.isBlank = true) :
    (scan s).1 = .absent ∨ (scan s).1 = .foreign := by
  have scanned : (scan s).1 = (scanValue (2 * s.length + 2) s).1 := rfl
  cases skipped : skipSpace s with
  | nil =>
      refine .inl ?_
      simp [scanned, scanValue, skipped]
  | cons c rest =>
      have first : c ∈ skipSpace s := by simp [skipped]
      have mem : c ∈ s := (List.dropWhile_suffix isSpace).subset first
      have foreign := scanValue_foreign skipped (List.all_eq_true.1 blank c mem) (2 * s.length + 1)
      exact .inr (by rw [scanned, foreign])

end Json

/-! ## Documents -/

namespace Wire

variable {text : String}

/-- A reader that refuses both outlines reads nothing from a blank text. -/
theorem exists_fault_of_blank {α : Type} [Document α] (blank : Text.isBlankText text = true)
    (absent : ∃ fault, (Document.read .absent : Except Json.Fault α) = .error fault)
    (foreign : ∃ fault, (Document.read .foreign : Except Json.Fault α) = .error fault) :
    ∃ fault, decode α text = .error fault := by
  have read : ∃ fault,
      (Document.read (Json.scan text.toList).1 : Except Json.Fault α) = .error fault := by
    rcases Json.scan_blank blank with outline | outline
    · simpa [outline] using absent
    · simpa [outline] using foreign
  rcases read with ⟨fault, read⟩
  exact ⟨fault, by simp [decode, Json.decode, read, bind, Except.bind]⟩

theorem Versions.decode_blank (blank : Text.isBlankText text = true) :
    ∃ fault, decode Versions text = .error fault :=
  exists_fault_of_blank blank ⟨_, rfl⟩ ⟨_, rfl⟩

theorem GroupList.decode_blank (blank : Text.isBlankText text = true) :
    ∃ fault, decode GroupList text = .error fault :=
  exists_fault_of_blank blank ⟨_, rfl⟩ ⟨_, rfl⟩

end Wire
end ApiCatalog
