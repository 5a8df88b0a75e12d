import ApiCatalog.Text.Word

/-!
# Cutting at a character

A text is cut if the character is in it, and the cut can be undone: what stands before the first or
the last of them and what stands behind it make up the text, and there is only one way to cut it so.

- `Text.cutFirst_eq_some` : cutting at the first one
- `Text.cutLast_eq_none`, `Text.cutLast_eq_some` : the two ways in which cutting at the last one
  ends
- `Text.cutLast_eq_empty_iff` : when nothing stands behind the last one
- `Text.eq_of_append`     : texts that were put together can be told apart again
-/

namespace ApiCatalog
namespace Text

variable {c : Char} {s t head rest front last : String}

/-! ## The first one -/

theorem cutFirst_eq_some :
    cutFirst c s = (head, some rest) ↔
      s = head ++ String.singleton c ++ rest ∧ c ∉ head.toList := by
  have cut : cutFirstChars c s.toList = (head.toList, some rest.toList) ↔
      s.toList = head.toList ++ c :: rest.toList ∧ c ∉ head.toList :=
    cutFirstChars_eq_some
  have chars : s = head ++ String.singleton c ++ rest ↔
      s.toList = head.toList ++ c :: rest.toList := by
    rw [← String.toList_inj]
    simp
  rw [chars, ← cut]
  unfold cutFirst
  rcases cutFirstChars c s.toList with ⟨first, _ | behind⟩ <;> simp [← String.toList_inj]

theorem cutFirst_of_not_mem (h : c ∉ s.toList) : cutFirst c s = (s, none) := by
  have cut : cutFirstChars c s.toList = (s.toList, none) := cutFirstChars_eq_none.2 ⟨rfl, h⟩
  unfold cutFirst
  rw [cut]
  simp

/-! ## The last one -/

/-- What stands behind the last one is the last part. -/
theorem cutLast_append (h : c ∉ last.toList) :
    cutLast c (front ++ String.singleton c ++ last) = (some front, last) := by
  -- read from the end, the last one comes first
  have cut : cutFirstChars c (last.toList.reverse ++ c :: front.toList.reverse) =
      (last.toList.reverse, some front.toList.reverse) :=
    cutFirstChars_eq_some.2 ⟨rfl, by simpa using h⟩
  unfold cutLast cutLastChars
  have turned : (front ++ String.singleton c ++ last).toList.reverse =
      last.toList.reverse ++ c :: front.toList.reverse := by simp
  rw [turned, cut]
  simp

theorem cutLast_of_not_mem (h : c ∉ s.toList) : cutLast c s = (none, s) := by
  have cut : cutFirstChars c s.toList.reverse = (s.toList.reverse, none) :=
    cutFirstChars_eq_none.2 ⟨rfl, by simpa using h⟩
  unfold cutLast cutLastChars
  rw [cut]
  simp

/-- If there is one, there is a last one. -/
theorem exists_cut (h : c ∈ s.toList) :
    ∃ front last, s = front ++ String.singleton c ++ last ∧ c ∉ last.toList := by
  -- read from the end, the first one is the last
  have turned : c ∈ s.toList.reverse := by simpa using h
  rcases List.eq_append_cons_of_mem turned with ⟨last, front, split, fresh⟩
  refine ⟨.ofList front.reverse, .ofList last.reverse, ?_, by simpa using fresh⟩
  rw [← String.toList_inj, ← List.reverse_inj, split]
  simp

theorem cutLast_eq_none : cutLast c s = (none, t) ↔ t = s ∧ c ∉ s.toList := by
  by_cases mem : c ∈ s.toList
  · rcases exists_cut mem with ⟨front, last, rfl, fresh⟩
    rw [cutLast_append fresh]
    exact iff_of_false nofun fun absent => absent.2 mem
  · rw [cutLast_of_not_mem mem]
    simp [mem, eq_comm]

theorem cutLast_eq_some :
    cutLast c s = (some front, last) ↔
      s = front ++ String.singleton c ++ last ∧ c ∉ last.toList := by
  constructor
  · intro cut
    by_cases mem : c ∈ s.toList
    · rcases exists_cut mem with ⟨front', last', rfl, fresh⟩
      rw [cutLast_append fresh] at cut
      cases cut
      exact ⟨rfl, fresh⟩
    · rw [cutLast_of_not_mem mem] at cut
      cases cut
  · rintro ⟨rfl, fresh⟩
    exact cutLast_append fresh

/-- Nothing stands behind the last one if the text ends in it. -/
theorem cutLast_eq_empty_iff :
    (cutLast c s).2 = "" ↔ s = "" ∨ s.toList.getLast? = some c := by
  rcases cut : cutLast c s with ⟨_ | front, last⟩
  · rcases cutLast_eq_none.1 cut with ⟨rfl, absent⟩
    have other : last.toList.getLast? ≠ some c := fun ends => absent (List.mem_of_getLast? ends)
    simp [other]
  · rcases cutLast_eq_some.1 cut with ⟨rfl, fresh⟩
    rw [String.toList_append, List.getLast?_append]
    cases ends : last.toList.getLast? with
    | none =>
        have nothing : last = "" := by simpa using ends
        simp [nothing]
    | some d =>
        have other : d ≠ c := fun same => fresh (same ▸ List.mem_of_getLast? ends)
        have something : last ≠ "" := by
          rintro rfl
          cases ends
        simp [other, something]

/-- The parts of a text on both sides of the last one are told by the text. -/
theorem eq_of_append {front' last' : String} (fresh : c ∉ last.toList) (fresh' : c ∉ last'.toList)
    (same : front ++ String.singleton c ++ last = front' ++ String.singleton c ++ last') :
    front = front' ∧ last = last' := by
  have cut : cutLast c (front' ++ String.singleton c ++ last') = (some front, last) :=
    cutLast_eq_some.2 ⟨same.symm, fresh⟩
  rw [cutLast_append fresh'] at cut
  cases cut
  exact ⟨rfl, rfl⟩

end Text
end ApiCatalog
