import ApiCatalog.Proofs.Kind.Sharing
import ApiCatalog.Proofs.Registry.Restriction

/-!
# Plural kinds

A kind may be asked for by its plural, in any letter case. The plural is tried under its own plural
first and the kind under itself last; as long as nothing is registered under these two names, both
lookups come down to one search under the plural.

- `Kind.trim_plural`          : a plural has no blanks around it that the kind did not have
- `Registry.firstHit_alone`   : a search under several names of which one can be registered
- `Registry.resolve_alone`    : a lookup under several names of which one can be registered
- `Registry.resolve_plural`   : a kind and its plural are looked up alike
-/

namespace ApiCatalog

/-! ## Plurals as kinds -/

namespace Kind

theorem Hisses.ne_empty {word : String} (h : Hisses word) : word.toList ≠ [] := by
  rcases h.getLast? with ⟨c, -, last⟩
  intro none
  simp [none] at last

/-- What lends its plural to a word begins like the word. -/
theorem Borrows.head?_plain {word plain : String} (h : Borrows word plain) :
    plain.toList.head? = word.toList.head? := by
  cases h with
  | hiss ends _ => rw [String.toList_append, List.head?_append_of_ne_nil _ ends.ne_empty]
  | @y stem c last _ =>
      have some_char : stem.toList ≠ [] := by
        intro none
        simp [none] at last
      rw [String.toList_append, String.toList_append, List.head?_append_of_ne_nil _ some_char,
        List.head?_append_of_ne_nil _ some_char]
  | endpoints => decide
  | endpointSlices => decide
  | nodeMetrics => decide
  | podMetrics => decide

/-- A plural begins like the kind, and ends in a letter. -/
theorem trim_plural {kind : String} (tidy : Text.trim kind = kind) :
    Text.trim (plural kind) = plural kind := by
  rcases exists_plain kind with ⟨plain, text, made⟩
  have begins : plain.toList.head? = (Text.lower kind).toList.head? := by
    rcases made with rfl | borrows
    · rfl
    · exact borrows.head?_plain
  refine Text.trim_eq_self (fun c first => ?_) fun c last => ?_
  · rw [text, String.toList_append, List.head?_append, begins, Text.toList_lower,
      List.head?_map] at first
    cases front : kind.toList.head? with
    | none =>
        rw [front] at first
        cases first
        decide
    | some d =>
        rw [front] at first
        cases first
        rw [Text.isBlank_toLower]
        exact Text.isBlank_head?_trim (tidy.symm ▸ front)
  · rw [text] at last
    simp at last
    rw [← last]
    decide

end Kind

/-! ## Searches under one name -/

namespace Registry

open Lookup (Tries)

variable {r : Registry} {name : String} {names : List String}

/-- Of these names no other one is registered. -/
def Alone (r : Registry) (name : String) (names : List String) : Prop :=
  ∀ e ∈ r.toList, e.key.name ∈ names → e.key.name = name

theorem findSome?_alone (alone : r.Alone name names) (mem : name ∈ names) (root : ApiRoot)
    (group : Option String) (version : String) :
    (names.map (Key.mk root group version)).findSome? r.get? =
      r.get? ⟨root, group, version, name⟩ := by
  have absent : ∀ n ∈ names, n ≠ name → r.get? ⟨root, group, version, n⟩ = none := by
    intro n tried other
    refine Option.eq_none_iff_forall_ne_some.2 fun e found => other ?_
    rcases get?_eq_some_iff.1 found with ⟨there, key⟩
    have named : e.key.name = n := by rw [key]
    exact named ▸ alone e there (named ▸ tried)
  rw [List.findSome?_map]
  cases own : r.get? ⟨root, group, version, name⟩ with
  | none =>
      refine List.findSome?_eq_none_iff.2 fun n tried => ?_
      by_cases same : n = name
      · rw [same]
        exact own
      · exact absent n tried same
  | some e =>
      rcases List.eq_append_cons_of_mem mem with ⟨before, after, split, fresh⟩
      have passed : ∀ n ∈ before, r.get? ⟨root, group, version, n⟩ = none := by
        intro n tried
        have listed : n ∈ names := split ▸ List.mem_append_left _ tried
        exact absent n listed fun same => fresh (same ▸ tried)
      exact List.findSome?_eq_some_iff.2 ⟨before, name, after, split, own, passed⟩

theorem firstHit_alone (alone : r.Alone name names) (mem : name ∈ names) (root : ApiRoot)
    (group : Option String) (version : String) :
    r.firstHit ((names.map (Key.mk root group version)).map Key.checked) =
      r.firstHit (([name].map (Key.mk root group version)).map Key.checked) := by
  by_cases written : version = ""
  · -- without a version the first key is refused already, whatever its name
    rcases List.exists_cons_of_ne_nil (List.ne_nil_of_mem mem) with ⟨first, rest, rfl⟩
    simp [Key.checked_eq, written, firstHit]
  · have made (ns : List String) : (ns.map (Key.mk root group version)).map Key.checked =
        (ns.map (Key.mk root group version)).map .ok := by
      simp [Key.checked_eq, written]
    have only : r.Alone name [name] := fun _ _ named => by simpa using named
    rw [made, made, firstHit_map_ok, firstHit_map_ok, findSome?_alone alone mem,
      findSome?_alone only List.mem_cons_self]

/-- A lookup that tries one name that can be registered is a search under that name. -/
theorem resolve_alone {preferred : Preferred} {version kind : String} {keys : List Key}
    (alone : r.Alone name [Kind.plural kind, Text.lower (Text.trim kind)])
    (mem : name ∈ [Kind.plural kind, Text.lower (Text.trim kind)])
    (h : Tries preferred (Lookup.bareVersion version) [name] keys) :
    r.resolve preferred version kind = r.firstHit (keys.map Key.checked) := by
  have one := firstHit_alone alone mem
  cases h with
  | qualified cut last =>
      rw [resolve_of_tries (.qualified cut last), one]
  | bare written flat =>
      rw [resolve_of_tries (.bare written flat), List.map_append, List.map_append, firstHit_append,
        firstHit_append, one, one]
  | blank nothing =>
      rw [resolve_of_tries (.blank nothing), List.map_append, List.map_append, firstHit_append,
        firstHit_append, one, one]

/-! ## Kinds and their plurals -/

/-- A kind and its plural are looked up alike, each in any letter case, as long as every endpoint
that has the name of the kind or of the plural of its plural has the name of its plural as well.
Both lookups are one search, for keys with the plural as their name. -/
theorem resolve_plural {r : Registry} {kind : String} (tidy : Text.trim kind = kind)
    (alone : r.Alone (Kind.plural kind) [Kind.plural (Kind.plural kind), Text.lower kind])
    (preferred : Preferred) (version : String) :
    r.resolve preferred version (Kind.plural kind) = r.resolve preferred version kind ∧
    (∀ a b, Text.lower a = Kind.plural kind → Text.lower b = Text.lower kind →
      r.resolve preferred version a = r.resolve preferred version b) ∧
    ∃ keys, Tries preferred (Lookup.bareVersion version) [Kind.plural kind] keys ∧
      r.resolve preferred version kind = r.firstHit (keys.map Key.checked) := by
  rcases Lookup.exists_tries preferred (Lookup.bareVersion version) [Kind.plural kind] with
    ⟨keys, tries⟩
  have of_plural (a : String) (same : Text.lower a = Kind.plural kind) :
      r.resolve preferred version a = r.firstHit (keys.map Key.checked) := by
    have plural : Kind.plural a = Kind.plural (Kind.plural kind) :=
      Kind.plural_congr (same.trans (Kind.lower_plural kind).symm)
    have given : Text.lower (Text.trim a) = Kind.plural kind := by
      rw [Text.lower_trim, same, Kind.trim_plural tidy]
    refine resolve_alone (fun e there named => ?_) (by simp [given]) tries
    rw [plural, given] at named
    rcases List.mem_cons.1 named with further | own
    · exact alone e there (further ▸ List.mem_cons_self)
    · exact List.mem_singleton.1 own
  have of_kind (b : String) (same : Text.lower b = Text.lower kind) :
      r.resolve preferred version b = r.firstHit (keys.map Key.checked) := by
    have plural : Kind.plural b = Kind.plural kind := Kind.plural_congr same
    have given : Text.lower (Text.trim b) = Text.lower kind := by
      rw [Text.lower_trim, same, ← Text.lower_trim, tidy]
    refine resolve_alone (fun e there named => ?_) (by simp [plural]) tries
    rw [plural, given] at named
    rcases List.mem_cons.1 named with own | bare
    · exact own
    · exact alone e there (List.mem_cons_of_mem _ bare)
  refine ⟨?_, fun a b plural same => ?_, keys, tries, of_kind kind rfl⟩
  · rw [of_plural _ (Kind.lower_plural kind), of_kind kind rfl]
  · rw [of_plural a plural, of_kind b same]

/-- Pods below both legacy roots, of which the one that is tried last comes first. -/
def podsTwice : List Call :=
  [.entry (.legacy .oapi ["v1"]) "v1" ⟨"pods", "Pod", true⟩,
    .entry (.legacy .api ["v1"]) "v1" ⟨"pods", "Pod", true⟩]

theorem resolve_plural_podsTwice :
    let r := ofCalls podsTwice
    let e : Endpoint := ⟨⟨.api, none, "v1", "pods"⟩, "Pod", true, Utf8.sorted []⟩
    r.Alone (Kind.plural "Pod") [Kind.plural (Kind.plural "Pod"), Text.lower "Pod"] ∧
      r.resolve .default " v1/ " "POD" = .ok (some e) ∧
      r.resolve .default " v1/ " "PODS" = .ok (some e) := by
  intro r e
  have named : ∀ a ∈ podsTwice.flatMap Call.accepted, a.key.name = Kind.plural "Pod" := by
    decide +kernel
  have alone : r.Alone (Kind.plural "Pod") [Kind.plural (Kind.plural "Pod"), Text.lower "Pod"] := by
    intro d there _
    obtain ⟨a, told, key⟩ :=
      (reflects_ofCalls podsTwice).mem_key_iff.1 (List.mem_map_of_mem there)
    rw [← key]
    exact named a told
  have tried : Lookup.candidates .default " v1/ " "POD" =
      [⟨.api, none, "v1", "pods"⟩, ⟨.api, none, "v1", "pod"⟩,
        ⟨.oapi, none, "v1", "pods"⟩, ⟨.oapi, none, "v1", "pod"⟩].map .ok := by decide +kernel
  have found : r.resolve .default " v1/ " "POD" = .ok (some e) := by
    rw [resolve_ofCalls tried]
    rfl
  have same := (resolve_plural (by decide +kernel) alone .default " v1/ ").2.1 "PODS" "POD"
    (by decide +kernel) (by decide +kernel)
  exact ⟨alone, found, same.trans found⟩

end Registry
end ApiCatalog
