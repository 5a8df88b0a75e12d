import ApiCatalog.Proofs.Lookup.Persistence

/-!
# Lists of entries as a whole

The entries of a list are added one after the other, and one that is refused would leave those
before it in place. It does not come to that: an entry is refused for its version alone, which is
the same for all entries of a list, so the first of them is refused or none is. A list that is
refused leaves no trace, and one that is taken is registered to its last entry.

- `Registry.Gained`         : what the adverts of a call add to a registry
- `Registry.gained_perform` : a call that is taken adds all that it offers
- `Registry.ofCalls_of_refused` : a call that is refused might as well not have been made
- `Registry.addList_atomic` : both, for resource lists
-/

namespace ApiCatalog
namespace Registry

open Advert (Reflects)

variable {r grown : Registry} {adverts more : List Advert}

/-! ## What is gained -/

/-- All that a registry has gained by adverts: for each of them an endpoint with its capability, and
nothing besides. What was there before is still there. -/
structure Gained (r grown : Registry) (adverts : List Advert) : Prop where
  continued : Endpoint.Continued r.toList grown.toList
  registered : ∀ a ∈ adverts, ∃ e, grown.get? a.key = some e ∧
    ∀ c, a.capability? = some c → c ∈ e.capabilities
  keys : ∀ k, k ∈ grown.toList.map Endpoint.key ↔
    k ∈ r.toList.map Endpoint.key ∨ ∃ a ∈ adverts, a.key = k
  capabilities : ∀ e ∈ grown.toList, ∀ c, c ∈ e.capabilities ↔
    (∃ d ∈ r.toList, d.key = e.key ∧ c ∈ d.capabilities) ∨
      ∃ a ∈ adverts, a.key = e.key ∧ a.capability? = some c
  first : ∀ e ∈ grown.toList, e.key ∉ r.toList.map Endpoint.key →
    ∃ a, adverts.find? (·.key = e.key) = some a ∧
      e.kind = a.entry.kind ∧ e.namespaced = a.entry.namespaced

section Reflection

variable (h : Reflects r.toList adverts) (h' : Reflects grown.toList (adverts ++ more))

include h h'

theorem mem_keys_gained (k : Key) : k ∈ grown.toList.map Endpoint.key ↔
    k ∈ r.toList.map Endpoint.key ∨ ∃ a ∈ more, a.key = k := by
  rw [h'.mem_key_iff, h.mem_key_iff]
  simp only [List.mem_append, or_and_right, exists_or]

theorem mem_capabilities_gained {e : Endpoint} (mem : e ∈ grown.toList) (c : String) :
    c ∈ e.capabilities ↔
      (∃ d ∈ r.toList, d.key = e.key ∧ c ∈ d.capabilities) ∨
        ∃ a ∈ more, a.key = e.key ∧ a.capability? = some c := by
  -- the adverts before are those that the registry before reflects
  have before : (∃ a ∈ adverts, a.key = e.key ∧ a.capability? = some c) ↔
      ∃ d ∈ r.toList, d.key = e.key ∧ c ∈ d.capabilities := by
    constructor
    · rintro ⟨a, told, key, tells⟩
      obtain ⟨d, there, same⟩ := List.mem_map.1 (h.mem_key_iff.2 ⟨a, told, key⟩)
      exact ⟨d, there, same, (h.capabilities d there c).2 ⟨a, told, key.trans same.symm, tells⟩⟩
    · rintro ⟨d, there, same, has⟩
      obtain ⟨a, told, key, tells⟩ := (h.capabilities d there c).1 has
      exact ⟨a, told, key.trans same, tells⟩
  rw [h'.capabilities e mem c, ← before]
  simp only [List.mem_append, or_and_right, exists_or]

/-- The first advert of a key that was not there is the first one among the new. -/
theorem first_gained {e : Endpoint} (mem : e ∈ grown.toList)
    (fresh : e.key ∉ r.toList.map Endpoint.key) :
    ∃ a, more.find? (·.key = e.key) = some a ∧
      e.kind = a.entry.kind ∧ e.namespaced = a.entry.namespaced := by
  obtain ⟨a, found, told⟩ := h'.first e mem
  have none_before : adverts.find? (·.key = e.key) = none := by
    refine List.find?_eq_none.2 fun b there same => fresh ?_
    exact h.mem_key_iff.2 ⟨b, there, by simpa using same⟩
  rw [List.find?_append, none_before, Option.none_or] at found
  exact ⟨a, found, told⟩

theorem gained_of_reflects (continued : Endpoint.Continued r.toList grown.toList) :
    Gained r grown more where
  continued := continued
  registered := by
    intro a told
    obtain ⟨e, there, key⟩ :=
      List.mem_map.1 ((mem_keys_gained h h' a.key).2 (.inr ⟨a, told, rfl⟩))
    refine ⟨e, get?_eq_some_iff.2 ⟨there, key⟩, fun c tells => ?_⟩
    exact (mem_capabilities_gained h h' there c).2 (.inr ⟨a, told, key.symm, tells⟩)
  keys := mem_keys_gained h h'
  capabilities := fun _ mem => mem_capabilities_gained h h' mem
  first := fun _ mem => first_gained h h' mem

end Reflection

/-! ## Calls that are taken or refused -/

/-- A call that is taken adds all that it offers. -/
theorem gained_perform (calls : List Call) {c : Call}
    (taken : (c.perform (ofCalls calls)).2 = none) :
    Gained (ofCalls calls) (c.perform (ofCalls calls)).1 c.offered := by
  have h := reflects_ofCalls calls
  have h' := reflects_perform h c
  have all : c.accepted = c.offered := by
    rcases perform_spec (ofCalls calls) c with ⟨all, -⟩ | ⟨-, refused⟩
    · exact all
    · simp [refused] at taken
  rw [all] at h'
  exact gained_of_reflects h h' (continued_perform _ c)

theorem ofCalls_append (calls later : List Call) :
    ofCalls (calls ++ later) = (ofCalls calls).after later :=
  List.foldl_append

/-- A call that is refused might as well not have been made. -/
theorem ofCalls_of_refused (calls : List Call) {c : Call} {fault : NamingFault}
    (refused : (c.perform (ofCalls calls)).2 = some fault) :
    (c.perform (ofCalls calls)).1 = ofCalls calls ∧
      ∀ later, ofCalls (calls ++ c :: later) = ofCalls (calls ++ later) := by
  have same : (c.perform (ofCalls calls)).1 = ofCalls calls := by
    rcases perform_spec (ofCalls calls) c with ⟨-, taken, -⟩ | ⟨-, whole⟩
    · simp [taken] at refused
    · rw [whole]
  refine ⟨same, fun later => ?_⟩
  calc
    ofCalls (calls ++ c :: later) = (c.perform (ofCalls calls)).1.after later :=
          ofCalls_append calls (c :: later)
    _ = (ofCalls calls).after later := by rw [same]
    _ = ofCalls (calls ++ later) := (ofCalls_append calls later).symm

/-! ## Resource lists -/

theorem fault_addList_iff (r : Registry) {g : Group} {version : String} {list : Wire.ResourceList}
    {fault : NamingFault} :
    (r.addList g version list).2 = some fault ↔
      (version = "" ∧ list.resources ≠ []) ∧ fault = .emptyVersion := by
  have ⟨refused, taken⟩ := r.addEntries_spec g version list.resources
  unfold addList
  by_cases empty : version = ""
  · by_cases nothing : list.resources = []
    · simp [nothing, addEntries]
    · rw [refused empty nothing]
      simp [empty, nothing, eq_comm]
  · simp [(taken empty).1, empty]

/-- To add a resource list fails if and only if it has entries and its version is empty, with that
fault. Then the registry is what it was, with its index, and after any further calls it is what it
would be without this one. Otherwise every entry of the list is registered with the capability that
it tells, nothing else is, and nothing is lost. -/
theorem addList_atomic (calls : List Call) (g : Group) (version : String)
    (list : Wire.ResourceList) :
    let r := ofCalls calls
    let added := r.addList g version list
    ((∃ fault, added.2 = some fault) ↔ version = "" ∧ list.resources ≠ []) ∧
    (∀ fault, added.2 = some fault → fault = .emptyVersion ∧ added.1 = r ∧
      ∀ later, ofCalls (calls ++ .list g version list :: later) = ofCalls (calls ++ later)) ∧
    (added.2 = none → Gained r added.1 (list.resources.map (.mk g version))) := by
  intro r added
  have fails (fault : NamingFault) : added.2 = some fault ↔
      (version = "" ∧ list.resources ≠ []) ∧ fault = .emptyVersion := r.fault_addList_iff
  refine ⟨?_, fun fault refused => ?_, fun taken => ?_⟩
  · simp only [fails, exists_and_left, exists_eq, and_true]
  · have without := ofCalls_of_refused calls (c := .list g version list) refused
    exact ⟨((fails fault).1 refused).2, without.1, without.2⟩
  · exact gained_perform calls (c := .list g version list) taken

end Registry
end ApiCatalog
