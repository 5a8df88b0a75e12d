import Mathlib
import ApiCatalog.Text.Blank
import ApiCatalog.Text.Word

/-!
# Letter case

Lower case is taken letter by letter, so it goes along with putting texts together, and no letter is
blank in either case, so it goes along with trimming.

- `Text.lower_lower`, `Text.lower_append` : lower case of lower case, and of two texts
- `Text.lower_trim`                       : lower case of a trimmed text
-/

namespace ApiCatalog
namespace Text

@[simp]
theorem toList_lower (s : String) : (lower s).toList = s.toList.map Char.toLower :=
  String.toList_ofList

@[simp]
theorem lower_lower (s : String) : lower (lower s) = lower s := by
  rw [← String.toList_inj]
  simp [Function.comp_def]

@[simp]
theorem lower_append (s t : String) : lower (s ++ t) = lower s ++ lower t := by
  rw [← String.toList_inj]
  simp

/-- No letter is blank, in either case. -/
theorem isBlank_toLower (c : Char) : isBlank c.toLower = isBlank c := by
  by_cases upper : c.isUpper = true
  · have ⟨least, most⟩ : 65 ≤ c.toNat ∧ c.toNat ≤ 90 := by
      simpa [Char.isUpper, UInt32.le_iff_toNat_le] using upper
    have lowered : c.toLower.toNat = c.toNat + 32 := by
      have scalar : (c.toNat + 32).isValidChar := .inl (by omega)
      rw [Char.toLower_eq_of_isUpper upper, Char.toNat_ofNat, if_pos scalar]
    -- the ranges of blank characters leave out all from `A` to `z`
    have visible (n : Nat) (high : 65 ≤ n) (low : n ≤ 122) :
        blankRanges.any (fun r => r.1 ≤ n && n ≤ r.2) = false := by
      simp [blankRanges]
      omega
    unfold isBlank inRanges
    rw [lowered, visible _ (by omega) (by omega), visible _ least (by omega)]
  · rw [Char.toLower_eq_of_not_isUpper upper]

theorem lower_trim (s : String) : lower (trim s) = trim (lower s) := by
  have dropped (cs : List Char) :
      (cs.map Char.toLower).dropWhile isBlank = (cs.dropWhile isBlank).map Char.toLower := by
    have same : isBlank ∘ Char.toLower = isBlank := funext isBlank_toLower
    rw [List.dropWhile_map, same]
  rw [← String.toList_inj]
  simp [trim, trimChars, dropped, ← List.map_reverse]

end Text
end ApiCatalog
