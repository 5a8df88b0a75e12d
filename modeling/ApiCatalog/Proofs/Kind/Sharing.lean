import Mathlib.Data.List.Infix
import ApiCatalog.Kind
import ApiCatalog.Proofs.Text.LetterCase

/-!
# Kinds that share a plural

The plural of a word is always some word with an `s` behind it: either the word itself, or another
one whose plural it takes on. A word can lend its plural to one other word at most, so of all kinds
that are told apart in lower case no more than two go by the same collection name.

- `Kind.Borrows`         : the words that take on the plural of another one, with the other one
- `Kind.exists_plain`    : the word that a plural is made of
- `Kind.Borrows.eq_borrower` : the one word that can take on the plural of another
- `Kind.shared_plurals`  : which kinds have the same plural
-/

namespace ApiCatalog
namespace Kind

/-! ## Endings -/

/-- A word that ends in a hiss, after which a bare `s` would not be heard. -/
def Hisses (word : String) : Prop :=
  ∃ ending ∈ ["s", "x", "z", "ch", "sh"], ending.toList <:+ word.toList

theorem hisses_iff {word : String} :
    Hisses word ↔ ∃ ending ∈ [['s'], ['x'], ['z'], ['h', 'c'], ['h', 's']],
      ending <+: word.toList.reverse := by
  simp [Hisses, ← List.reverse_prefix]

theorem Hisses.getLast? {word : String} (h : Hisses word) :
    ∃ c ∈ ['s', 'x', 'z', 'h'], word.toList.getLast? = some c := by
  rcases h with ⟨ending, known, before, same⟩
  rw [← same]
  simp only [List.mem_cons, List.not_mem_nil, or_false] at known
  rcases known with rfl | rfl | rfl | rfl | rfl <;> simp

theorem isVowel_eq_false_iff {c : Char} : isVowel c = false ↔ c ∉ ['a', 'e', 'i', 'o', 'u'] := by
  simp [isVowel, and_assoc]

theorem regularPlural_of_hisses {word : String} (h : Hisses word) :
    regularPlural word.toList = (word ++ "e" ++ "s").toList := by
  rcases h with ⟨ending, known, before, same⟩
  simp only [List.mem_cons, List.not_mem_nil, or_false] at known
  rw [String.toList_append, String.toList_append, ← same]
  rcases known with rfl | rfl | rfl | rfl | rfl <;> simp [regularPlural]

theorem regularPlural_of_y {stem : String} {c : Char} (last : stem.toList.getLast? = some c)
    (consonant : c ∉ ['a', 'e', 'i', 'o', 'u']) :
    regularPlural (stem ++ "y").toList = (stem ++ "ie" ++ "s").toList := by
  rcases List.getLast?_eq_some_iff.1 last with ⟨front, same⟩
  simp [regularPlural, same, isVowel_eq_false_iff.2 consonant]

/-- A word that neither hisses nor ends in a `y` after a consonant takes a bare `s`. -/
theorem regularPlural_cases (word : String) :
    Hisses word ∨
    (∃ (stem : String) (c : Char), stem.toList.getLast? = some c ∧
      c ∉ ['a', 'e', 'i', 'o', 'u'] ∧ word = stem ++ "y") ∨
    regularPlural word.toList = (word ++ "s").toList := by
  by_cases hiss : Hisses word
  · exact .inl hiss
  · refine .inr ?_
    rw [hisses_iff] at hiss
    rw [String.toList_append]
    unfold regularPlural
    split
    case h_6 c stem same =>
      split
      · exact .inr rfl
      · next consonant =>
          refine .inl ⟨.ofList (c :: stem).reverse, c, by simp, ?_, ?_⟩
          · exact isVowel_eq_false_iff.1 (by simpa using consonant)
          · rw [← String.toList_inj, ← List.reverse_inj, same]
            simp
    case h_7 => exact .inr rfl
    -- every other ending is a hiss
    all_goals
      next same => simp [same] at hiss

/-! ## Words with a plural of their own -/

/-- The words that the endings do not decide. -/
def listed : List String :=
  ["endpoints", "endpointslices", "nodemetrics", "podmetrics"]

theorem not_listed_of_last {word : String} {c : Char} (last : word.toList.getLast? = some c)
    (other : c ≠ 's') : word ∉ listed := by
  intro mem
  simp only [listed, List.mem_cons, List.not_mem_nil, or_false] at mem
  rcases mem with rfl | rfl | rfl | rfl <;> simp at last <;> exact other last.symm

theorem plural_of_lookup {kind p : String} (own : irregular.lookup (Text.lower kind) = some p) :
    plural kind = p := by
  simp only [plural, own]

theorem plural_of_not_listed {kind : String} (regular : Text.lower kind ∉ listed) :
    plural kind = .ofList (regularPlural (Text.lower kind).toList) := by
  have unlisted : irregular.lookup (Text.lower kind) = none := by
    rw [List.lookup_eq_none_iff]
    simpa [irregular, listed] using regular
  simp only [plural, unlisted]

/-- A word that ends in none of the letters that matter takes a bare `s`. -/
theorem plural_of_last {kind : String} {c : Char}
    (last : (Text.lower kind).toList.getLast? = some c)
    (other : c ∉ ['s', 'x', 'z', 'h', 'y']) : plural kind = Text.lower kind ++ "s" := by
  have regular : Text.lower kind ∉ listed :=
    not_listed_of_last last fun same => other (by simp [same])
  rw [plural_of_not_listed regular]
  rcases regularPlural_cases (Text.lower kind) with hiss | ⟨stem, d, -, -, same⟩ | bare
  · rcases hiss.getLast? with ⟨d, known, last'⟩
    cases last.symm.trans last'
    exact absurd (List.mem_append_left ['y'] known) other
  · rw [same] at last
    simp at last
    exact absurd (by simp [← last]) other
  · rw [bare, String.ofList_toList]

/-! ## Borrowed plurals -/

/-- The first word is made plural like the second one, which takes a bare `s`. -/
inductive Borrows : String → String → Prop
  | hiss {word : String} (ends : Hisses word) (regular : word ∉ listed) :
      Borrows word (word ++ "e")
  | y {stem : String} {c : Char} (last : stem.toList.getLast? = some c)
      (consonant : c ∉ ['a', 'e', 'i', 'o', 'u']) : Borrows (stem ++ "y") (stem ++ "ie")
  | endpoints : Borrows "endpoints" "endpoint"
  | endpointSlices : Borrows "endpointslices" "endpointslice"
  | nodeMetrics : Borrows "nodemetrics" "node"
  | podMetrics : Borrows "podmetrics" "pod"

/-- The one word that may take on the plural of another, by the end of the other. -/
def borrower (plain : String) : String :=
  match plain.toList.reverse with
  | 'e' :: 'i' :: stem => .ofList stem.reverse ++ "y"
  | 'e' :: 'c' :: _ | 't' :: _ => plain ++ "s"
  | 'e' :: 'd' :: _ | 'd' :: _ => plain ++ "metrics"
  | _ :: stem => .ofList stem.reverse
  | [] => ""

namespace Borrows

variable {word plain kind : String}

theorem eq_borrower (h : Borrows word plain) : word = borrower plain := by
  cases h with
  | hiss ends _ =>
      rcases ends.getLast? with ⟨c, known, last⟩
      rcases List.getLast?_eq_some_iff.1 last with ⟨front, same⟩
      have text : word = String.ofList (front ++ [c]) := by rw [← same, String.ofList_toList]
      simp only [List.mem_cons, List.not_mem_nil, or_false] at known
      rcases known with rfl | rfl | rfl | rfl <;> simp [borrower, text]
  | y last _ => simp [borrower]
  | endpoints => decide
  | endpointSlices => decide
  | nodeMetrics => decide
  | podMetrics => decide

theorem getLast?_plain (h : Borrows word plain) :
    ∃ c ∉ ['s', 'x', 'z', 'h', 'y'], plain.toList.getLast? = some c := by
  cases h with
  | hiss _ _ => exact ⟨'e', by decide, by simp⟩
  | y _ _ => exact ⟨'e', by decide, by simp⟩
  | endpoints => exact ⟨'t', by decide, by decide⟩
  | endpointSlices => exact ⟨'e', by decide, by decide⟩
  | nodeMetrics => exact ⟨'e', by decide, by decide⟩
  | podMetrics => exact ⟨'d', by decide, by decide⟩

theorem plural_plain (h : Borrows word (Text.lower kind)) :
    plural kind = Text.lower kind ++ "s" := by
  rcases h.getLast?_plain with ⟨c, other, last⟩
  exact plural_of_last last other

theorem plural_word (h : Borrows (Text.lower kind) plain) : plural kind = plain ++ "s" := by
  generalize same : Text.lower kind = word at h
  cases h with
  | hiss ends regular =>
      rw [plural_of_not_listed (same ▸ regular), same, regularPlural_of_hisses ends,
        String.ofList_toList]
  | @y stem c last consonant =>
      have end_y : (stem ++ "y").toList.getLast? = some 'y' := by simp
      have regular : stem ++ "y" ∉ listed := not_listed_of_last end_y (by decide)
      rw [plural_of_not_listed (same ▸ regular), same, regularPlural_of_y last consonant,
        String.ofList_toList]
  | endpoints => exact plural_of_lookup (by rw [same]; decide)
  | endpointSlices => exact plural_of_lookup (by rw [same]; decide)
  | nodeMetrics => exact plural_of_lookup (by rw [same]; decide)
  | podMetrics => exact plural_of_lookup (by rw [same]; decide)

end Borrows

theorem exists_borrows_of_listed {word : String} (mem : word ∈ listed) :
    ∃ plain, Borrows word plain := by
  simp only [listed, List.mem_cons, List.not_mem_nil, or_false] at mem
  rcases mem with rfl | rfl | rfl | rfl
  · exact ⟨_, .endpoints⟩
  · exact ⟨_, .endpointSlices⟩
  · exact ⟨_, .nodeMetrics⟩
  · exact ⟨_, .podMetrics⟩

/-- A plural is made of the word itself or of the one that it borrows from. -/
theorem exists_plain (kind : String) :
    ∃ plain, plural kind = plain ++ "s" ∧
      (Text.lower kind = plain ∨ Borrows (Text.lower kind) plain) := by
  by_cases mem : Text.lower kind ∈ listed
  · rcases exists_borrows_of_listed mem with ⟨plain, borrows⟩
    exact ⟨plain, borrows.plural_word, .inr borrows⟩
  · rcases regularPlural_cases (Text.lower kind) with ends | ⟨stem, c, last, consonant, same⟩ | bare
    · have borrows := Borrows.hiss ends mem
      exact ⟨_, borrows.plural_word, .inr borrows⟩
    · have borrows : Borrows (Text.lower kind) (stem ++ "ie") := same ▸ .y last consonant
      exact ⟨_, borrows.plural_word, .inr borrows⟩
    · refine ⟨_, ?_, .inl rfl⟩
      rw [plural_of_not_listed mem, bare, String.ofList_toList]

theorem plain_of_plural {kind plain : String} (same : plural kind = plain ++ "s") :
    Text.lower kind = plain ∨ Borrows (Text.lower kind) plain := by
  rcases exists_plain kind with ⟨other, text, made⟩
  have equal : other = plain := by simpa using text.symm.trans same
  rwa [equal] at made

/-! ## Letter case -/

theorem plural_congr {a b : String} (same : Text.lower a = Text.lower b) : plural a = plural b := by
  simp only [plural, same]

theorem Borrows.lower_plain {word plain : String} (h : Borrows word plain)
    (lowered : Text.lower word = word) : Text.lower plain = plain := by
  cases h with
  | hiss _ _ =>
      have e : Text.lower "e" = "e" := by decide
      rw [Text.lower_append, lowered, e]
  | y _ _ =>
      have y : Text.lower "y" = "y" := by decide
      have ie : Text.lower "ie" = "ie" := by decide
      rw [Text.lower_append, y] at lowered
      rw [Text.lower_append, ie]
      simpa using lowered
  | endpoints => decide
  | endpointSlices => decide
  | nodeMetrics => decide
  | podMetrics => decide

theorem lower_plural (kind : String) : Text.lower (plural kind) = plural kind := by
  have s : Text.lower "s" = "s" := by decide
  rcases exists_plain kind with ⟨plain, text, made⟩
  have lowered : Text.lower plain = plain := by
    rcases made with rfl | borrows
    · exact Text.lower_lower kind
    · exact borrows.lower_plain (Text.lower_lower kind)
  rw [text, Text.lower_append, lowered, s]

/-! ## Sharing -/

/-- A word that borrows its plural and is a plural itself. -/
theorem Borrows.eq_of_plural {word plain : String} (h : Borrows word plain)
    (own : word = plain ++ "s") : word = "endpoints" ∨ word = "endpointslices" := by
  cases h with
  | hiss _ _ =>
      have longer := congrArg (·.toList.length) own
      simp at longer
  | y _ _ => simp [String.append_assoc] at own
  | endpoints => exact .inl rfl
  | endpointSlices => exact .inr rfl
  | nodeMetrics => exact absurd own (by decide)
  | podMetrics => exact absurd own (by decide)

/-- Which kinds have the same plural: those that are equal in lower case, and those of which one
borrows the plural of the other. So among three kinds with one plural two are equal in lower case.
Two words are plurals already. -/
theorem shared_plurals :
    (∀ a b : String, plural a = plural b ↔
      Text.lower a = Text.lower b ∨
        Borrows (Text.lower a) (Text.lower b) ∨ Borrows (Text.lower b) (Text.lower a)) ∧
    (∀ a b c : String, plural a = plural b → plural b = plural c →
      Text.lower a = Text.lower b ∨ Text.lower b = Text.lower c ∨ Text.lower a = Text.lower c) ∧
    ∀ a : String, plural a = a ↔ a = "endpoints" ∨ a = "endpointslices" := by
  refine ⟨fun a b => ⟨fun same => ?_, ?_⟩, fun a b c first second => ?_,
    fun a => ⟨fun own => ?_, ?_⟩⟩
  · rcases exists_plain a with ⟨plain, text, rfl | lent⟩
    · rcases plain_of_plural (same ▸ text) with equal | borrows
      · exact .inl equal.symm
      · exact .inr (.inr borrows)
    · rcases plain_of_plural (same ▸ text) with rfl | borrows
      · exact .inr (.inl lent)
      · -- one word at most borrows from another
        exact .inl (lent.eq_borrower.trans borrows.eq_borrower.symm)
  · rintro (equal | borrows | borrows)
    · exact plural_congr equal
    · rw [borrows.plural_word, borrows.plural_plain]
    · rw [borrows.plural_word, borrows.plural_plain]
  · rcases exists_plain a with ⟨plain, text, made⟩
    have either (kind : String) (same : plural kind = plain ++ "s") :
        Text.lower kind = plain ∨ Text.lower kind = borrower plain :=
      (plain_of_plural same).imp_right Borrows.eq_borrower
    have of_a := either a text
    have of_b := either b (first ▸ text)
    have of_c := either c (second ▸ first ▸ text)
    grind
  · have lowered : Text.lower a = a := by rw [← own, lower_plural]
    rcases exists_plain a with ⟨plain, text, made⟩
    rw [lowered] at made
    rcases made with rfl | borrows
    · have longer := congrArg (·.toList.length) (own.symm.trans text)
      simp at longer
    · exact borrows.eq_of_plural (own.symm.trans text)
  · rintro (rfl | rfl) <;> decide

/-- A policy shares its plural with the word that is left of policies, and with no third one. -/
theorem shared_plurals_policy :
    plural "Policy" = plural "policie" ∧ plural "policie" = plural "POLICY" ∧
      (Text.lower "Policy" = Text.lower "policie" ∨ Text.lower "policie" = Text.lower "POLICY" ∨
        Text.lower "Policy" = Text.lower "POLICY") := by
  have first : plural "Policy" = plural "policie" := by decide +kernel
  have second : plural "policie" = plural "POLICY" := by decide +kernel
  exact ⟨first, second, shared_plurals.2.1 "Policy" "policie" "POLICY" first second⟩

end Kind
end ApiCatalog
