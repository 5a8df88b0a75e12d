import ApiCatalog.Proofs.Lookup.Precedence

/-!
# Parts of a registry

What a registry says about some keys depends on the adverts of these keys alone. Adverts of other
keys may come between them, in any number and order: they neither hide a key nor change the order,
the kind or the capabilities of what is there.

- `Advert.reference_filter`, `Advert.Reflects.restrict` : the endpoints of some keys are those that
  the adverts of these keys make
- `Registry.resolve_ofCalls` : a lookup, by what the adverts describe under its keys
- `Registry.get?_congr`     : registries with the same adverts of some keys agree on them
- `Registry.firstHit_congr` : so does a search through such keys
-/

namespace ApiCatalog
namespace Advert

variable {P : Key → Bool} {es fs : List Endpoint} {adverts others : List Advert}

/-! ## Adverts of some keys -/

theorem describe_filter {k : Key} (inside : P k = true) (adverts : List Advert) :
    describe (adverts.filter (P ·.key)) k = describe adverts k := by
  have same (a : Advert) : (P a.key && decide (a.key = k)) = decide (a.key = k) := by
    by_cases key : a.key = k
    · simp [key, inside]
    · simp [key]
  have of_key : (adverts.filter (P ·.key)).filter (·.key = k) = adverts.filter (·.key = k) := by
    rw [List.filter_filter]
    exact List.filter_congr fun a _ => by rw [Bool.and_comm, same]
  have first : (adverts.filter (P ·.key)).find? (·.key = k) = adverts.find? (·.key = k) := by
    rw [List.find?_filter]
    exact congrArg (adverts.find? ·) (funext fun a => by rw [← same a]; simp)
  rw [describe, first, of_key, describe]

theorem key_of_describe {k : Key} {e : Endpoint} (h : describe adverts k = some e) : e.key = k := by
  rcases Option.map_eq_some_iff.1 h with ⟨a, -, rfl⟩
  rfl

theorem keys_filter (adverts : List Advert) :
    keys (adverts.filter (P ·.key)) = (keys adverts).filter P := by
  -- an advert at the end adds its key to both sides or to none
  induction adverts using List.reverseRecOn with
  | nil => rfl
  | append_singleton before a ih =>
      rw [List.filter_append, keys_snoc]
      by_cases inside : P a.key = true
      · have one : [a].filter (P ·.key) = [a] := by simp [inside]
        rw [one, keys_snoc, ih]
        by_cases there : a.key ∈ keys before
        · simp [there, inside]
        · simp [there, inside]
      · have none : [a].filter (P ·.key) = [] := by simp [inside]
        rw [none, List.append_nil, ih]
        by_cases there : a.key ∈ keys before
        · simp [there]
        · simp [there, inside]

/-- The endpoints of some keys are what the adverts of these keys describe. -/
theorem reference_filter (adverts : List Advert) :
    reference (adverts.filter (P ·.key)) = (reference adverts).filter (P ·.key) := by
  have each (k : Key) :
      (if P k then describe (adverts.filter (P ·.key)) k else none) =
        (describe adverts k).filter (P ·.key) := by
    by_cases inside : P k = true
    · rw [if_pos inside, describe_filter inside]
      cases told : describe adverts k with
      | none => rfl
      | some e => simp [Option.filter_some, key_of_describe told, inside]
    · rw [if_neg inside]
      cases told : describe adverts k with
      | none => rfl
      | some e => simp [Option.filter_some, key_of_describe told, inside]
  unfold reference
  rw [keys_filter, List.filterMap_filter, List.filter_filterMap]
  exact List.filterMap_congr fun k _ => each k

/-- To reflect the adverts of some keys is to be that part of what reflects all of them. -/
theorem Reflects.restrict (h : Reflects es adverts)
    (part : Reflects fs (adverts.filter (P ·.key))) : fs = es.filter (P ·.key) := by
  rw [part.eq_reference, h.eq_reference, reference_filter]

end Advert

/-! ## Looking up -/

namespace Registry

variable {r r' : Registry} {adverts adverts' : List Advert} {P : Key → Bool}

/-- Looking up a key gives what the adverts of the key describe. -/
theorem get?_eq_describe (h : Advert.Reflects r.toList adverts) (k : Key) :
    r.get? k = Advert.describe adverts k := by
  cases found : r.get? k with
  | none =>
      have absent : k ∉ Advert.keys adverts := by
        rw [← h.keys]
        exact get?_eq_none_iff.1 found
      rw [Advert.mem_keys, not_exists] at absent
      have none_told : adverts.find? (·.key = k) = none := by
        simpa [List.find?_eq_none] using absent
      rw [Advert.describe, none_told, Option.map_none]
  | some e =>
      rcases get?_eq_some_iff.1 found with ⟨mem, rfl⟩
      exact (h.described mem).symm

/-- A lookup in the registry of calls asks what the accepted adverts describe under its keys. -/
theorem resolve_ofCalls {calls : List Call} {preferred : Preferred} {version kind : String}
    {keys : List Key} (made : Lookup.candidates preferred version kind = keys.map .ok) :
    (ofCalls calls).resolve preferred version kind =
      .ok (keys.findSome? (Advert.describe (calls.flatMap Call.accepted))) := by
  have described : (ofCalls calls).get? = Advert.describe (calls.flatMap Call.accepted) :=
    funext (get?_eq_describe (reflects_ofCalls calls))
  rw [resolve, made, firstHit_map_ok, described]

/-- Registries that were told the same about some keys agree on these keys. -/
theorem get?_congr (h : Advert.Reflects r.toList adverts) (h' : Advert.Reflects r'.toList adverts')
    (same : adverts.filter (P ·.key) = adverts'.filter (P ·.key)) {k : Key} (inside : P k = true) :
    r.get? k = r'.get? k := by
  calc
    r.get? k = Advert.describe adverts k := get?_eq_describe h k
    _ = Advert.describe (adverts.filter (P ·.key)) k := (Advert.describe_filter inside _).symm
    _ = Advert.describe (adverts'.filter (P ·.key)) k := by rw [same]
    _ = Advert.describe adverts' k := Advert.describe_filter inside _
    _ = r'.get? k := (get?_eq_describe h' k).symm

/-- A search depends on what is registered under the keys that it goes through. -/
theorem firstHit_congr {keys : List Key} (same : ∀ k ∈ keys, r.get? k = r'.get? k) :
    r.firstHit (keys.map Key.checked) = r'.firstHit (keys.map Key.checked) := by
  induction keys with
  | nil => rfl
  | cons k rest ih =>
      have later := ih fun k' mem => same k' (List.mem_cons_of_mem k mem)
      rw [List.map_cons, Key.checked_eq]
      split
      · rfl
      · rw [firstHit, firstHit, same k List.mem_cons_self, later]

end Registry
end ApiCatalog
