import Mathlib.Data.List.DropRight
import ApiCatalog.Text.Blank

/-!
# Trimming

A trimmed text is a part of the text with blank characters around it, and a text that no blank
character begins or ends is trimmed already. So blanks around a text do not matter to its trimmed
form, and copies of a character do not matter to what is left when that one is dropped at the end.

- `Text.trim_infix`   : nothing is added
- `Text.trim_eq_self` : what is left as it is
- `Text.trim_append`, `Text.exists_padding` : the blank characters around a text
- `Text.trim_append_visible` : what keeps blanks away from the end
- `Text.dropTrailing_append` : the copies of a character at the end of a text
-/

namespace ApiCatalog
namespace Text

variable {s : String}

/-! ## Blank characters at both ends -/

theorem toList_trim (s : String) :
    (trim s).toList = (s.toList.dropWhile isBlank).rdropWhile isBlank := by
  rw [trim, String.toList_ofList]
  rfl

theorem trim_infix (s : String) : (trim s).toList <:+: s.toList := by
  rw [toList_trim]
  exact (List.rdropWhile_prefix isBlank _).isInfix.trans (List.dropWhile_suffix isBlank).isInfix

theorem isBlank_head?_trim {c : Char} (first : (trim s).toList.head? = some c) :
    isBlank c = false := by
  rw [toList_trim] at first
  rcases List.rdropWhile_prefix isBlank (s.toList.dropWhile isBlank) with ⟨rest, whole⟩
  have head : (s.toList.dropWhile isBlank).head? = some c := by
    rw [← whole, List.head?_append, first]
    rfl
  simpa [head] using List.head?_dropWhile_not isBlank s.toList

theorem isBlank_getLast?_trim {c : Char} (last : (trim s).toList.getLast? = some c) :
    isBlank c = false := by
  rw [toList_trim] at last
  have chars : (s.toList.dropWhile isBlank).rdropWhile isBlank ≠ [] := by
    intro none
    simp [none] at last
  rw [List.getLast?_eq_some_getLast chars] at last
  have visible := List.rdropWhile_last_not isBlank _ chars
  rw [Option.some.inj last] at visible
  simpa using visible

theorem trim_eq_self (first : ∀ c, s.toList.head? = some c → isBlank c = false)
    (last : ∀ c, s.toList.getLast? = some c → isBlank c = false) : trim s = s := by
  have front : s.toList.dropWhile isBlank = s.toList := by
    cases text : s.toList with
    | nil => rfl
    | cons c rest => exact List.dropWhile_cons_of_neg (by simp [first c (by simp [text])])
  have back : s.toList.rdropWhile isBlank = s.toList := by
    rw [List.rdropWhile_eq_self_iff]
    intro some_char
    simp [last _ (List.getLast?_eq_some_getLast some_char)]
  rw [← String.toList_inj, toList_trim, front, back]

/-! ## Padding -/

theorem mem_isBlankText : isBlankText s = true ↔ ∀ c ∈ s.toList, isBlank c = true :=
  List.all_eq_true

theorem rdropWhile_append {p : Char → Bool} {t : List Char} (all : ∀ c ∈ t, p c = true)
    (s : List Char) : (s ++ t).rdropWhile p = s.rdropWhile p := by
  have turned : ∀ c ∈ t.reverse, p c = true := by simpa using all
  simp only [List.rdropWhile, List.reverse_append, List.dropWhile_append_of_pos turned]

/-- Blank characters around a text are trimmed away, those that it has of its own with them. -/
theorem trim_append {a b : String} (before : isBlankText a = true) (after : isBlankText b = true)
    (s : String) : trim (a ++ s ++ b) = trim s := by
  rw [mem_isBlankText] at before after
  rw [← String.toList_inj, toList_trim, toList_trim, String.toList_append, String.toList_append,
    List.append_assoc, List.dropWhile_append_of_pos before, List.dropWhile_append]
  split
  · next none =>
      -- a text of blank characters alone, which takes those behind it along
      have gone : b.toList.dropWhile isBlank = [] := List.dropWhile_eq_nil_iff.2 after
      rw [gone, List.isEmpty_iff.1 none]
  · exact rdropWhile_append after _

/-- A text is its trimmed form with blank characters around it. -/
theorem exists_padding (s : String) :
    ∃ a b, isBlankText a = true ∧ isBlankText b = true ∧ s = a ++ trim s ++ b := by
  let inner := s.toList.dropWhile isBlank
  refine ⟨.ofList (s.toList.takeWhile isBlank), .ofList (inner.rtakeWhile isBlank), ?_, ?_, ?_⟩
  · rw [mem_isBlankText, String.toList_ofList]
    exact fun _ mem => List.mem_takeWhile_imp mem
  · rw [mem_isBlankText, String.toList_ofList]
    exact fun _ mem => List.mem_rtakeWhile_imp mem
  · rw [← String.toList_inj, String.toList_append, String.toList_append, toList_trim,
      String.toList_ofList, String.toList_ofList, List.append_assoc,
      List.rdropWhile_append_rtakeWhile, List.takeWhile_append_dropWhile]

/-- Only in front does a text have blanks of its own that are trimmed, if it ends in none. -/
theorem exists_padding_front (last : ∀ c, s.toList.getLast? = some c → isBlank c = false) :
    ∃ a, isBlankText a = true ∧ s = a ++ trim s := by
  rcases exists_padding s with ⟨a, b, before, after, text⟩
  refine ⟨a, before, ?_⟩
  have none : b.toList = [] := by
    rw [List.eq_nil_iff_forall_not_mem]
    intro d mem
    have ends := List.getLast?_eq_some_getLast (List.ne_nil_of_mem mem)
    have blank := mem_isBlankText.1 after _ (List.mem_of_getLast? ends)
    rw [last _ (by rw [text, String.toList_append, List.getLast?_append, ends]; rfl)] at blank
    cases blank
  rw [← String.toList_inj, text, String.toList_append, none, List.append_nil, ← text]

/-- What is visible keeps the blanks away from the end, so only those in front are trimmed. -/
theorem trim_append_visible {t : String}
    (last : ∀ c, s.toList.getLast? = some c → isBlank c = false)
    (visible : ∀ c ∈ t.toList, isBlank c = false) : trim (s ++ t) = trim s ++ t := by
  rcases exists_padding_front last with ⟨a, before, text⟩
  have front : trim (s ++ t) = trim (trim s ++ t) := by
    have padded : s ++ t = a ++ (trim s ++ t) ++ "" := by
      rw [String.append_empty, ← String.append_assoc, ← text]
    rw [padded, trim_append before rfl]
  refine front.trans (trim_eq_self (fun c first => ?_) fun c last => ?_)
  · rw [String.toList_append, List.head?_append] at first
    rcases Option.or_eq_some_iff.1 first with own | ⟨-, other⟩
    · exact isBlank_head?_trim own
    · exact visible c (List.mem_of_head? other)
  · rw [String.toList_append, List.getLast?_append] at last
    rcases Option.or_eq_some_iff.1 last with other | ⟨-, own⟩
    · exact visible c (List.mem_of_getLast? other)
    · exact isBlank_getLast?_trim own

/-! ## One character at the end -/

theorem toList_dropTrailing (c : Char) (s : String) :
    (dropTrailing c s).toList = s.toList.rdropWhile (· == c) := by
  rw [dropTrailing, String.toList_ofList]
  rfl

theorem dropTrailing_eq_self {c : Char} (h : s.toList.getLast? ≠ some c) :
    dropTrailing c s = s := by
  rw [← String.toList_inj, toList_dropTrailing, List.rdropWhile_eq_self_iff]
  intro some_char last
  rw [List.getLast?_eq_some_getLast some_char] at h
  exact h (congrArg some (beq_iff_eq.1 last))

theorem getLast?_dropTrailing_ne (c : Char) (s : String) :
    (dropTrailing c s).toList.getLast? ≠ some c := by
  rw [toList_dropTrailing]
  by_cases none : s.toList.rdropWhile (· == c) = []
  · simp [none]
  · rw [List.getLast?_eq_some_getLast none]
    intro last
    exact List.rdropWhile_last_not (· == c) s.toList none (beq_iff_eq.2 (Option.some.inj last))

theorem dropTrailing_append (c : Char) (s : String) (n : Nat) :
    dropTrailing c (s ++ .ofList (.replicate n c)) = dropTrailing c s := by
  have copies : ∀ d ∈ List.replicate n c, (d == c) = true := by
    intro d mem
    simp [List.eq_of_mem_replicate mem]
  rw [← String.toList_inj, toList_dropTrailing, toList_dropTrailing, String.toList_append,
    String.toList_ofList, rdropWhile_append copies]

end Text
end ApiCatalog
