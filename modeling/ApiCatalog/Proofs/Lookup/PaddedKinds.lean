import Mathlib.Data.List.Count
import ApiCatalog.Proofs.Lookup.PluralKinds

/-!
# Blanks around kinds

Of the two names that a kind is looked up under, the kind itself is trimmed and the plural is not:
it is made of the kind with the blanks around it, and keeps them. So with blanks around it a kind is
found under itself, which suits a kind that is a plural already, and what it finds under its plural
without them is lost.

- `Text.blanks`, `Kind.blanks_plural` : a plural has as many blanks as the kind
- `Registry.FindsOnly`       : nothing is found but under one name
- `Registry.resolve_given`   : a lookup that finds nothing under the plural
- `Registry.resolve_padded`  : when blanks around a kind do not matter
- `Registry.pods_lost`       : a kind that is not found for a blank behind it
-/

namespace ApiCatalog

/-! ## Counting blanks -/

namespace Text

def blanks (s : String) : Nat :=
  s.toList.countP isBlank

@[simp]
theorem blanks_append (s t : String) : blanks (s ++ t) = blanks s + blanks t := by
  rw [blanks, String.toList_append, List.countP_append]
  rfl

@[simp]
theorem blanks_lower (s : String) : blanks (lower s) = blanks s := by
  have same : isBlank ∘ Char.toLower = isBlank := funext isBlank_toLower
  rw [blanks, toList_lower, List.countP_map, same]
  rfl

theorem blanks_of_isBlankText {s : String} (blank : isBlankText s = true) :
    blanks s = s.toList.length :=
  List.countP_eq_length.2 (mem_isBlankText.1 blank)

end Text

/-! ## Plurals -/

namespace Kind

open Text (blanks)

/-- The endings that words exchange hold no blanks. -/
theorem Borrows.blanks_plain {word plain : String} (h : Borrows word plain) :
    blanks plain = blanks word := by
  cases h with
  | hiss _ _ =>
      rw [Text.blanks_append]
      rfl
  | y _ _ =>
      rw [Text.blanks_append, Text.blanks_append]
      rfl
  | endpoints => decide
  | endpointSlices => decide
  | nodeMetrics => decide
  | podMetrics => decide

theorem blanks_plural (kind : String) : blanks (plural kind) = blanks kind := by
  rcases exists_plain kind with ⟨plain, text, made⟩
  have word : blanks plain = blanks (Text.lower kind) := by
    rcases made with rfl | borrows
    · rfl
    · exact borrows.blanks_plain
  rw [text, Text.blanks_append, word, Text.blanks_lower]
  rfl

/-- With blanks around it a kind has more of them than without. -/
theorem blanks_lt_padded {a b : String} (before : Text.isBlankText a = true)
    (after : Text.isBlankText b = true) (padded : a ++ b ≠ "") (kind : String) :
    blanks kind < blanks (a ++ kind ++ b) := by
  have some_char : 0 < blanks a + blanks b := by
    rw [Text.blanks_of_isBlankText before, Text.blanks_of_isBlankText after, ← List.length_append,
      ← String.toList_append, List.length_pos_iff]
    simpa using padded
  rw [Text.blanks_append, Text.blanks_append]
  omega

theorem plural_padded_ne {a b : String} (before : Text.isBlankText a = true)
    (after : Text.isBlankText b = true) (padded : a ++ b ≠ "") (kind : String) :
    plural (a ++ kind ++ b) ≠ plural kind := by
  intro same
  have more := blanks_lt_padded before after padded kind
  rw [← blanks_plural (a ++ kind ++ b), same, blanks_plural] at more
  exact Nat.lt_irrefl _ more

end Kind

/-! ## Searches under two names -/

namespace Registry

open Lookup (Tries)
open Text (blanks)

/-- Whatever is found has this name. -/
def FindsOnly (found : Except NamingFault (Option Endpoint)) (name : String) : Prop :=
  ∀ e, found = .ok (some e) → e.key.name = name

variable {r : Registry} {name : String}

/-- At one place another name is tried first, and leaves no trace unless something has it. -/
theorem firstHit_pair {root : ApiRoot} {group : Option String} {version other : String}
    (only : FindsOnly
      (r.firstHit (([other, name].map (Key.mk root group version)).map Key.checked)) name) :
    r.firstHit (([other, name].map (Key.mk root group version)).map Key.checked) =
      r.firstHit (([name].map (Key.mk root group version)).map Key.checked) := by
  by_cases written : version = ""
  · simp [Key.checked_eq, written, firstHit]
  · cases hit : r.get? ⟨root, group, version, other⟩ with
    | none => simp [Key.checked_eq, written, firstHit, hit]
    | some e =>
        -- the other name has something, so by assumption it is this one
        have found := only e (by simp [Key.checked_eq, written, firstHit, hit])
        have named : e.key.name = other := by rw [(get?_eq_some_iff.1 hit).2]
        obtain rfl : other = name := named.symm.trans found
        simp [Key.checked_eq, written, firstHit, hit]

theorem FindsOnly.front {keys later : List (Except NamingFault Key)}
    (only : FindsOnly (r.firstHit (keys ++ later)) name) : FindsOnly (r.firstHit keys) name := by
  intro e hit
  refine only e ?_
  rw [firstHit_append, hit]

/-- Places that are searched one after the other. -/
theorem firstHit_append_congr {keys keys' later later' : List (Except NamingFault Key)}
    (only : FindsOnly (r.firstHit (keys ++ later)) name)
    (first : FindsOnly (r.firstHit keys) name → r.firstHit keys = r.firstHit keys')
    (second : FindsOnly (r.firstHit later) name → r.firstHit later = r.firstHit later') :
    r.firstHit (keys ++ later) = r.firstHit (keys' ++ later') := by
  have same := first only.front
  rw [firstHit_append] at only ⊢
  rw [firstHit_append, ← same]
  cases before : r.firstHit keys with
  | error fault => rfl
  | ok hit =>
      cases hit with
      | some e => rfl
      | none =>
          -- only now the later places are searched, and what they give is the result
          rw [before] at only
          exact second only

variable {preferred : Preferred} {version kind : String} {keys : List Key}

/-- A lookup that finds nothing under the plural is a search under the kind itself. -/
theorem resolve_given
    (only : FindsOnly (r.resolve preferred version kind) (Text.lower (Text.trim kind)))
    (h : Tries preferred (Lookup.bareVersion version) [Text.lower (Text.trim kind)] keys) :
    r.resolve preferred version kind = r.firstHit (keys.map Key.checked) := by
  cases h with
  | qualified cut last =>
      rw [resolve_of_tries (.qualified cut last)] at only ⊢
      exact firstHit_pair only
  | bare written flat =>
      rw [resolve_of_tries (.bare written flat), List.map_append] at only ⊢
      rw [List.map_append]
      exact firstHit_append_congr only firstHit_pair firstHit_pair
  | blank nothing =>
      rw [resolve_of_tries (.blank nothing), List.map_append] at only ⊢
      rw [List.map_append]
      exact firstHit_append_congr only firstHit_pair firstHit_pair

/-! ## Lookups of padded kinds -/

section Padded

variable {a b : String} (before : Text.isBlankText a = true) (after : Text.isBlankText b = true)
variable (padded : a ++ b ≠ "")

include before after padded

/-- The two plurals differ, so what is found both with blanks and without is found under the name
that does not. -/
theorem name_of_both {e : Endpoint}
    (spelled : r.resolve preferred version (a ++ kind ++ b) = .ok (some e))
    (plain : r.resolve preferred version kind = .ok (some e)) :
    e.key.name = Text.lower (Text.trim kind) := by
  have either := Lookup.mem_names.1 (mem_of_resolve spelled).2
  rw [Text.trim_append before after] at either
  rcases either with plural | given
  · rcases Lookup.mem_names.1 (mem_of_resolve plain).2 with other | given
    · exact absurd (plural.symm.trans other) (Kind.plural_padded_ne before after padded kind)
    · exact given
  · exact given

/-- A name without blanks is no plural of a padded kind. -/
theorem findsOnly_padded (visible : ∀ e ∈ r.toList, blanks e.key.name = 0) :
    FindsOnly (r.resolve preferred version (a ++ kind ++ b)) (Text.lower (Text.trim kind)) := by
  intro e found
  have ⟨mem, named⟩ := mem_of_resolve found
  have either := Lookup.mem_names.1 named
  rw [Text.trim_append before after] at either
  rcases either with plural | given
  · have some_blank := Kind.blanks_lt_padded before after padded kind
    have none := visible e mem
    rw [plural, Kind.blanks_plural] at none
    omega
  · exact given

end Padded

/-- Blanks around a kind do not matter to a lookup if and only if all that is found, with them and
without, has the kind itself for its name. They always matter to the plural, which keeps them. So
where no registered name holds a blank, a kind with blanks around it is searched for under itself
alone, and the same is found as without them unless that is found under the plural. -/
theorem resolve_padded {a b : String} (before : Text.isBlankText a = true)
    (after : Text.isBlankText b = true) (padded : a ++ b ≠ "") (r : Registry)
    (preferred : Preferred) (version kind : String) :
    let lookup := r.resolve preferred version
    let spelled := a ++ kind ++ b
    let given := Text.lower (Text.trim kind)
    (lookup spelled = lookup kind ↔
      FindsOnly (lookup spelled) given ∧ FindsOnly (lookup kind) given) ∧
    ((∀ e ∈ r.toList, blanks e.key.name = 0) →
      (∃ keys, Tries preferred (Lookup.bareVersion version) [given] keys ∧
        lookup spelled = r.firstHit (keys.map Key.checked)) ∧
      (lookup spelled = lookup kind ↔ FindsOnly (lookup kind) given)) := by
  intro lookup spelled given
  have trimmed : Text.lower (Text.trim spelled) = given := by
    rw [Text.trim_append before after]
  rcases Lookup.exists_tries preferred (Lookup.bareVersion version) [given] with ⟨keys, tries⟩
  have search (only : FindsOnly (lookup spelled) given) :
      lookup spelled = r.firstHit (keys.map Key.checked) := by
    rw [← trimmed] at only tries
    exact resolve_given only tries
  have both : lookup spelled = lookup kind ↔
      FindsOnly (lookup spelled) given ∧ FindsOnly (lookup kind) given := by
    constructor
    · intro same
      have name {e : Endpoint} (found : lookup kind = .ok (some e)) : e.key.name = given :=
        name_of_both before after padded (same.trans found) found
      exact ⟨fun e found => name (same.symm.trans found), fun e found => name found⟩
    · rintro ⟨spelled_only, kind_only⟩
      -- both are then the one search under the kind itself
      exact (search spelled_only).trans (resolve_given kind_only tries).symm
  refine ⟨both, fun visible => ?_⟩
  have only : FindsOnly (lookup spelled) given := findsOnly_padded before after padded visible
  exact ⟨⟨keys, tries, search only⟩, both.trans (and_iff_right only)⟩

/-- Pods, and nothing else. -/
def podsAlone : List Call :=
  [.entry (.legacy .api ["v1"]) "v1" ⟨"pods", "Pod", true⟩]

/-- A plural with blanks around it. -/
theorem resolve_padded_pods :
    let r := ofCalls podsAlone
    let e : Endpoint := ⟨⟨.api, none, "v1", "pods"⟩, "Pod", true, Utf8.sorted []⟩
    Text.isBlankText " " = true ∧ Text.isBlankText "\u3000" = true ∧ " " ++ "\u3000" ≠ "" ∧
      (∀ d ∈ r.toList, blanks d.key.name = 0) ∧
      r.resolve .default "v1" (" " ++ "Pods" ++ "\u3000") = .ok (some e) := by
  intro r e
  have before : Text.isBlankText " " = true := by decide
  have after : Text.isBlankText "\u3000" = true := by decide
  have padded : " " ++ "\u3000" ≠ "" := by simp
  have named : ∀ a ∈ podsAlone.flatMap Call.accepted, a.key.name = "pods" := by decide +kernel
  have visible : ∀ d ∈ r.toList, blanks d.key.name = 0 := by
    intro d there
    obtain ⟨a, accepted, key⟩ :=
      (reflects_ofCalls podsAlone).mem_key_iff.1 (List.mem_map_of_mem there)
    rw [← key, named a accepted]
    rfl
  have tried : Lookup.candidates .default "v1" "Pods" =
      [⟨.api, none, "v1", "podses"⟩, ⟨.api, none, "v1", "pods"⟩,
        ⟨.oapi, none, "v1", "podses"⟩, ⟨.oapi, none, "v1", "pods"⟩].map .ok := by decide +kernel
  have found : r.resolve .default "v1" "Pods" = .ok (some e) := by
    rw [resolve_ofCalls tried]
    rfl
  have only : FindsOnly (r.resolve .default "v1" "Pods") (Text.lower (Text.trim "Pods")) := by
    intro d hit
    cases found.symm.trans hit
    decide
  have same := ((resolve_padded before after padded r .default "v1" "Pods").2 visible).2
  exact ⟨before, after, padded, visible, (same.2 only).trans found⟩

/-- A kind that is found under its plural is lost with a blank behind it. -/
theorem pods_lost :
    let r := ofCalls podsAlone
    let e : Endpoint := ⟨⟨.api, none, "v1", "pods"⟩, "Pod", true, Utf8.sorted []⟩
    Text.isBlankText "" = true ∧ Text.isBlankText " " = true ∧
      r.resolve .default "v1" "Pod" = .ok (some e) ∧
      r.resolve .default "v1" ("" ++ "Pod" ++ " ") = .ok none := by
  intro r e
  have tried : Lookup.candidates .default "v1" "Pod" =
      [⟨.api, none, "v1", "pods"⟩, ⟨.api, none, "v1", "pod"⟩,
        ⟨.oapi, none, "v1", "pods"⟩, ⟨.oapi, none, "v1", "pod"⟩].map .ok := by decide +kernel
  have tried_padded : Lookup.candidates .default "v1" ("" ++ "Pod" ++ " ") =
      [⟨.api, none, "v1", "pod s"⟩, ⟨.api, none, "v1", "pod"⟩,
        ⟨.oapi, none, "v1", "pod s"⟩, ⟨.oapi, none, "v1", "pod"⟩].map .ok := by decide +kernel
  refine ⟨by decide, by decide, ?_, ?_⟩
  · rw [resolve_ofCalls tried]
    rfl
  · rw [resolve_ofCalls tried_padded]
    rfl

end Registry
end ApiCatalog
