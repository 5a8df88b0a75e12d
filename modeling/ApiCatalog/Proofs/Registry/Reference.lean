import ApiCatalog.Proofs.Registry.Growth
import ApiCatalog.Proofs.Text.ByteOrder

/-!
# What a registry holds

A registry is determined by the adverts that it took, in a way that needs neither an index nor
updates in place: one endpoint for each key, in order of first appearance, with the kind and scope
of the first advert of the key and the capabilities of all of them in the order of their octets.

- `Advert.reference`           : that list of endpoints
- `Advert.Reflects`            : what a list of endpoints has in common with adverts at every step
- `Registry.Call`              : a call that adds one entry or a whole list
- `Registry.registry_eq_reference` : the registry after any calls
-/

namespace ApiCatalog
namespace Advert

/-! ## The reference -/

/-- The endpoint that adverts describe under a key. -/
def describe (adverts : List Advert) (k : Key) : Option Endpoint :=
  (adverts.find? (·.key = k)).map fun first =>
    ⟨k, first.entry.kind, first.entry.namespaced,
      Utf8.sorted ((adverts.filter (·.key = k)).filterMap capability?)⟩

def keys (adverts : List Advert) : List Key :=
  (adverts.map key).eraseDups

def reference (adverts : List Advert) : List Endpoint :=
  (keys adverts).filterMap (describe adverts)

theorem mem_keys {adverts : List Advert} {k : Key} :
    k ∈ keys adverts ↔ ∃ a ∈ adverts, a.key = k := by
  rw [keys, List.mem_eraseDups, List.mem_map]

theorem eraseDups_snoc {α : Type} [DecidableEq α] (xs : List α) (x : α) :
    (xs ++ [x]).eraseDups = if x ∈ xs then xs.eraseDups else xs.eraseDups ++ [x] := by
  rw [List.eraseDups_append]
  split
  · next there => simp [List.removeAll, there]
  · next new => simp [List.removeAll, new, List.eraseDups_cons]

theorem keys_snoc (adverts : List Advert) (a : Advert) :
    keys (adverts ++ [a]) =
      if a.key ∈ keys adverts then keys adverts else keys adverts ++ [a.key] := by
  unfold keys
  rw [List.map_append, List.map_singleton, eraseDups_snoc]
  simp only [List.mem_eraseDups]

/-! ## Reflection -/

/-- What endpoints have in common with the adverts that they were made from. -/
structure Reflects (es : List Endpoint) (adverts : List Advert) : Prop where
  keys : es.map Endpoint.key = keys adverts
  first : ∀ e ∈ es, ∃ a, adverts.find? (·.key = e.key) = some a ∧
    e.kind = a.entry.kind ∧ e.namespaced = a.entry.namespaced
  increasing : ∀ e ∈ es, e.capabilities.Pairwise (· < ·)
  capabilities : ∀ e ∈ es, ∀ c,
    c ∈ e.capabilities ↔ ∃ a ∈ adverts, a.key = e.key ∧ a.capability? = some c

namespace Reflects

variable {es : List Endpoint} {adverts : List Advert}

theorem nil : Reflects [] [] :=
  ⟨rfl, by simp, by simp, by simp⟩

theorem mem_key_iff (h : Reflects es adverts) {k : Key} :
    k ∈ es.map Endpoint.key ↔ ∃ a ∈ adverts, a.key = k := by
  rw [h.keys, mem_keys]

/-- An endpoint that is there before an advert is still right after it. -/
theorem first_teach (h : Reflects es adverts) (a : Advert) {e : Endpoint} (mem : e ∈ es) :
    ∃ b, (adverts ++ [a]).find? (·.key = (a.teach e).key) = some b ∧
      (a.teach e).kind = b.entry.kind ∧ (a.teach e).namespaced = b.entry.namespaced := by
  obtain ⟨b, found, kind, scope⟩ := h.first e mem
  refine ⟨b, ?_, by rw [kind_teach, kind], by rw [namespaced_teach, scope]⟩
  rw [List.find?_append, key_teach, found, Option.some_or]

/-- An endpoint that an advert opens has that advert for its first one. -/
theorem first_opened (h : Reflects es adverts) {a : Advert} (fresh : a.key ∉ es.map Endpoint.key) :
    (adverts ++ [a]).find? (·.key = a.key) = some a := by
  have before : adverts.find? (·.key = a.key) = none := by
    refine List.find?_eq_none.2 fun b mem same => fresh ?_
    exact h.mem_key_iff.2 ⟨b, mem, by simpa using same⟩
  rw [List.find?_append, before, Option.none_or]
  simp

theorem mem_absorb {a : Advert} {e : Endpoint} :
    e ∈ absorb es a ↔ (∃ d ∈ es, a.teach d = e) ∨
      a.key ∉ es.map Endpoint.key ∧ a.teach a.opened = e := by
  unfold absorb appear
  rw [List.mem_map]
  split
  · next there => simp [there]
  · next fresh =>
      constructor
      · rintro ⟨d, mem, rfl⟩
        rcases List.mem_append.1 mem with old | new
        · exact .inl ⟨d, old, rfl⟩
        · rw [List.mem_singleton.1 new]
          exact .inr ⟨fresh, rfl⟩
      · rintro (⟨d, old, rfl⟩ | ⟨-, rfl⟩)
        · exact ⟨d, List.mem_append_left _ old, rfl⟩
        · exact ⟨a.opened, List.mem_append_right _ (List.mem_singleton.2 rfl), rfl⟩

/-- One more advert. -/
theorem absorb (h : Reflects es adverts) (a : Advert) :
    Reflects (absorb es a) (adverts ++ [a]) where
  keys := by rw [map_key_absorb, h.keys, keys_snoc]
  first := by
    intro e mem
    rcases mem_absorb.1 mem with ⟨d, old, rfl⟩ | ⟨fresh, rfl⟩
    · exact h.first_teach a old
    · refine ⟨a, ?_, by rw [kind_teach]; rfl, by rw [namespaced_teach]; rfl⟩
      rw [key_teach]
      exact h.first_opened fresh
  increasing := by
    intro e mem
    rcases mem_absorb.1 mem with ⟨d, old, rfl⟩ | ⟨-, rfl⟩
    · exact pairwise_capabilities_teach (h.increasing d old)
    · exact pairwise_capabilities_teach List.Pairwise.nil
  capabilities := by
    intro e mem c
    have later (d : Endpoint) : (∃ b ∈ adverts ++ [a], b.key = d.key ∧ b.capability? = some c) ↔
        (∃ b ∈ adverts, b.key = d.key ∧ b.capability? = some c) ∨
          a.key = d.key ∧ a.capability? = some c := by
      simp [or_and_right, exists_or]
    rcases mem_absorb.1 mem with ⟨d, old, rfl⟩ | ⟨fresh, rfl⟩
    · rw [mem_capabilities_teach, key_teach, later, h.capabilities d old]
    · -- no earlier advert has the key, so none told a capability of it
      have none_before : ¬∃ b ∈ adverts, b.key = a.opened.key ∧ b.capability? = some c := by
        rintro ⟨b, before, same, -⟩
        exact fresh (h.mem_key_iff.2 ⟨b, before, same⟩)
      rw [mem_capabilities_teach, key_teach, later]
      exact or_congr (iff_of_false List.not_mem_nil none_before) Iff.rfl

theorem foldl_absorb (h : Reflects es adverts) (more : List Advert) :
    Reflects (more.foldl Advert.absorb es) (adverts ++ more) := by
  induction more generalizing es adverts with
  | nil => simpa using h
  | cons a rest ih =>
      rw [List.foldl_cons, List.append_cons]
      exact ih (h.absorb a)

/-- The adverts of its key describe an endpoint. -/
theorem described (h : Reflects es adverts) {e : Endpoint} (mem : e ∈ es) :
    describe adverts e.key = some e := by
  obtain ⟨a, found, kind, scope⟩ := h.first e mem
  -- the capabilities are increasing, so they are determined by their members
  have texts : e.capabilities =
      Utf8.sorted ((adverts.filter (·.key = e.key)).filterMap capability?) := by
    refine Utf8.eq_sorted (h.increasing e mem) fun c => ?_
    rw [h.capabilities e mem c]
    simp [and_assoc]
  rw [describe, found, Option.map_some, ← kind, ← scope, ← texts]

/-- Reflection leaves no choice. -/
theorem eq_reference (h : Reflects es adverts) : es = reference adverts := by
  calc
    es = es.filterMap some := List.filterMap_some.symm
    _ = es.filterMap fun e => describe adverts e.key :=
          List.filterMap_congr fun e mem => (h.described mem).symm
    _ = (es.map Endpoint.key).filterMap (describe adverts) := by rw [List.filterMap_map]; rfl
    _ = reference adverts := by rw [h.keys, reference]

end Reflects
end Advert

/-! ## Calls -/

namespace Registry

/-- A call that adds one entry, or the entries of a list. -/
inductive Call
  | entry (group : Group) (version : String) (e : Wire.ResourceEntry)
  | list (group : Group) (version : String) (doc : Wire.ResourceList)
  deriving DecidableEq, Repr

namespace Call

/-- What a call would add. -/
def offered : Call → List Advert
  | .entry group version e => [⟨group, version, e⟩]
  | .list group version doc => doc.resources.map (.mk group version)

/-- What of it is taken: nothing is served at an empty version. -/
def accepted (c : Call) : List Advert :=
  c.offered.filter (·.version ≠ "")

/-- The registry after a call, and the reason if the call is refused. -/
def perform (r : Registry) : Call → Registry × Option NamingFault
  | .entry group version e =>
      match r.add group version e with
      | .ok grown => (grown, none)
      | .error fault => (r, some fault)
  | .list group version doc => r.addList group version doc

end Call

/-- The registry after calls, refused ones among them. -/
def ofCalls (calls : List Call) : Registry :=
  calls.foldl (fun r c => (c.perform r).1) .empty

/-- A call is taken as a whole, or refused as a whole without a trace. -/
theorem perform_spec (r : Registry) (c : Call) :
    (c.accepted = c.offered ∧ (c.perform r).2 = none ∧
      (c.perform r).1.toList = c.offered.foldl Advert.absorb r.toList) ∨
    (c.accepted = [] ∧ c.perform r = (r, some .emptyVersion)) := by
  cases c with
  | entry group version e =>
      by_cases empty : version = ""
      · subst empty
        exact .inr ⟨rfl, by rw [Call.perform, add_emptyVersion]⟩
      · obtain ⟨grown, taken, list⟩ := r.toList_add ⟨group, version, e⟩ empty
        refine .inl ⟨by simp [Call.accepted, Call.offered, empty], ?_⟩
        rw [Call.perform, taken]
        exact ⟨rfl, list⟩
  | list group version doc =>
      have ⟨refused, taken⟩ := r.addEntries_spec group version doc.resources
      by_cases empty : version = ""
      · -- a list without entries is taken even here, since it adds nothing
        by_cases none_offered : doc.resources = []
        · refine .inl ⟨by simp [Call.accepted, Call.offered, none_offered], ?_⟩
          simp [Call.perform, addList, addEntries, Call.offered, none_offered]
        · refine .inr ⟨?_, refused empty none_offered⟩
          simp [Call.accepted, Call.offered, empty]
      · refine .inl ⟨?_, taken empty⟩
        simp [Call.accepted, Call.offered, empty]

theorem reflects_perform {r : Registry} {adverts : List Advert}
    (h : Advert.Reflects r.toList adverts) (c : Call) :
    Advert.Reflects (c.perform r).1.toList (adverts ++ c.accepted) := by
  rcases perform_spec r c with ⟨all, -, list⟩ | ⟨nothing, same⟩
  · rw [all, list]
    exact h.foldl_absorb c.offered
  · rw [nothing, same, List.append_nil]
    exact h

/-- The registry after any calls reflects what was accepted. -/
theorem reflects_ofCalls (calls : List Call) :
    Advert.Reflects (ofCalls calls).toList (calls.flatMap Call.accepted) := by
  have run (r : Registry) (adverts : List Advert) (h : Advert.Reflects r.toList adverts) :
      Advert.Reflects (calls.foldl (fun r c => (c.perform r).1) r).toList
        (adverts ++ calls.flatMap Call.accepted) := by
    -- what the calls before have made reflects what was accepted of them
    induction calls generalizing r adverts with
    | nil => simpa using h
    | cons c rest ih =>
        rw [List.foldl_cons, List.flatMap_cons, ← List.append_assoc]
        exact ih _ _ (reflects_perform h c)
  exact run .empty [] .nil

/-! ## Looking up -/

theorem get?_eq_find? (r : Registry) (k : Key) : r.get? k = r.toList.find? (·.key = k) := by
  cases found : r.toList.find? (·.key = k) with
  | none =>
      refine Option.eq_none_iff_forall_ne_some.2 fun e hit => ?_
      obtain ⟨mem, key⟩ := get?_eq_some_iff.1 hit
      exact List.find?_eq_none.1 found e mem (by simpa using key)
  | some e =>
      have key : e.key = k := by simpa using List.find?_some found
      exact get?_eq_some_iff.2 ⟨List.mem_of_find?_eq_some found, key⟩

/-- The index never points beyond the endpoints. -/
theorem index_lt_size {r : Registry} {k : Key} {i : Nat} (h : r.index[k]? = some i) :
    i < r.size := by
  have at_i := (r.indexed k i).1 h
  by_contra beyond
  simp [Array.getElem?_eq_none (Nat.le_of_not_lt beyond)] at at_i

theorem contains_iff (r : Registry) (k : Key) : r.contains k = (r.get? k).isSome := by
  unfold contains
  rw [Std.HashMap.contains_eq_isSome_getElem?]
  cases found : r.index[k]? with
  | none => simp [get?, found]
  | some i =>
      have inside : i < r.endpoints.size := index_lt_size found
      simp [get?, found, inside]

/-! ## The registry of calls -/

/-- After any calls, refused ones among them, the registry is the reference of the accepted adverts:
the same endpoints in the same order, as many as there are keys, each with the capabilities of its
key and no others in the order of their octets. The index leads to the endpoint that a search of
the list finds, and never out of bounds. -/
theorem registry_eq_reference (calls : List Call) :
    let r := ofCalls calls
    let adverts := calls.flatMap Call.accepted
    r.toList = Advert.reference adverts ∧
      r.toList.map Endpoint.key = (adverts.map Advert.key).eraseDups ∧
      r.size = (adverts.map Advert.key).eraseDups.length ∧
      (∀ e ∈ r.toList,
        e.capabilities.Pairwise (fun a b => Utf8.encode a < Utf8.encode b) ∧
        ∀ c, c ∈ e.capabilities ↔ ∃ a ∈ adverts, a.key = e.key ∧ a.capability? = some c) ∧
      (∀ k, r.get? k = r.toList.find? (·.key = k) ∧
        (∀ i, r.index[k]? = some i → i < r.size) ∧
        (r.contains k = true ↔ (r.get? k).isSome = true)) ∧
      ∀ c : Call, c.accepted = c.offered ∧ (c.perform r).2 = none ∨
        c.accepted = [] ∧ c.perform r = (r, some .emptyVersion) := by
  intro r adverts
  have reflects : Advert.Reflects r.toList adverts := reflects_ofCalls calls
  refine ⟨reflects.eq_reference, reflects.keys, ?_, ?_, ?_, ?_⟩
  · have keys : (r.toList.map Endpoint.key).length = (Advert.keys adverts).length :=
      congrArg List.length reflects.keys
    rw [List.length_map] at keys
    exact keys
  · intro e mem
    refine ⟨(reflects.increasing e mem).imp fun lt => Utf8.encode_lt_encode lt, ?_⟩
    exact reflects.capabilities e mem
  · intro k
    exact ⟨get?_eq_find? r k, fun _ => index_lt_size, by rw [contains_iff]⟩
  · intro c
    rcases perform_spec r c with ⟨all, taken, -⟩ | ⟨nothing, refused⟩
    · exact .inl ⟨all, taken⟩
    · exact .inr ⟨nothing, refused⟩

end Registry
end ApiCatalog
