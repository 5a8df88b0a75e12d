import ApiCatalog.Endpoint
import Std.Data.HashMap

/-!
# Registries

The endpoints of a catalog in order of first appearance, with an index from keys to positions.
Entries that name a capability are folded into the endpoint they belong to; the first entry of a
key decides its kind and scope.

- `Registry.add`, `Registry.addList` : growth by an entry, and by a resource list
- `Registry.get?`                    : the endpoint of a key
- `Registry.get?_eq_some_iff`        : looking up is membership, so no two endpoints share a key
-/

namespace ApiCatalog

/-- Whether `index` tells the position of every endpoint by its key, and nothing else. -/
def IndexOf (endpoints : Array Endpoint) (index : Std.HashMap Key Nat) : Prop :=
  ∀ k i, index[k]? = some i ↔ endpoints[i]?.map Endpoint.key = some k

structure Registry where
  endpoints : Array Endpoint
  index : Std.HashMap Key Nat
  indexed : IndexOf endpoints index

/-! ## Keeping the index -/

namespace IndexOf

variable {endpoints : Array Endpoint} {index : Std.HashMap Key Nat}

theorem empty : IndexOf #[] ∅ := by
  intro k i
  simp

/-- An endpoint with a new key goes to the end. -/
theorem push (h : IndexOf endpoints index) {e : Endpoint} (fresh : index[e.key]? = none) :
    IndexOf (endpoints.push e) (index.insert e.key endpoints.size) := by
  intro k i
  rw [Std.HashMap.getElem?_insert, Array.getElem?_push]
  by_cases hk : e.key = k
  · subst hk
    by_cases hi : i = endpoints.size
    · simp [hi]
    · -- the key was not there before, so it is at no earlier position
      have absent : endpoints[i]?.map Endpoint.key ≠ some e.key := by
        intro there
        simp [(h e.key i).2 there] at fresh
      simpa [hi, Ne.symm hi] using absent
  · by_cases hi : i = endpoints.size
    · have beyond : index[k]? ≠ some endpoints.size := by
        intro there
        simpa using (h k endpoints.size).1 there
      simpa [hk, hi] using beyond
    · simpa [hk, hi] using h k i

/-- An endpoint may change in place as long as it keeps its key. -/
theorem modify (h : IndexOf endpoints index) (n : Nat) {f : Endpoint → Endpoint}
    (keeps : ∀ e, (f e).key = e.key) : IndexOf (endpoints.modify n f) index := by
  intro k i
  rw [h k i, Array.getElem?_modify]
  by_cases hi : n = i
  · simp [hi, Option.map_map, Function.comp_def, keeps]
  · simp [hi]

end IndexOf

namespace Registry

def empty : Registry :=
  ⟨#[], ∅, .empty⟩

/-! ## Reading -/

def toList (r : Registry) : List Endpoint :=
  r.endpoints.toList

def size (r : Registry) : Nat :=
  r.endpoints.size

def isEmpty (r : Registry) : Bool :=
  r.endpoints.isEmpty

/-- The endpoint of a key, through the index. -/
def get? (r : Registry) (k : Key) : Option Endpoint :=
  r.index[k]? >>= (r.endpoints[·]?)

def contains (r : Registry) (k : Key) : Bool :=
  r.index.contains k

theorem pairwise_key_ne (r : Registry) : r.toList.Pairwise (·.key ≠ ·.key) := by
  rw [List.pairwise_iff_getElem]
  intro i j hi hj lt same
  have found : ∀ n (h : n < r.toList.length), r.index[r.toList[n].key]? = some n := by
    intro n h
    refine (r.indexed _ n).2 ?_
    have there : r.endpoints[n]? = some r.toList[n] := by
      rw [← Array.getElem?_toList]
      exact List.getElem?_eq_getElem h
    simp [there]
  have at_i := found i hi
  rw [same, found j hj] at at_i
  injection at_i with eq
  exact Nat.lt_irrefl i (eq ▸ lt)

theorem get?_eq_some_iff {r : Registry} {k : Key} {e : Endpoint} :
    r.get? k = some e ↔ e ∈ r.toList ∧ e.key = k := by
  constructor
  · intro h
    obtain ⟨i, hi, he⟩ := Option.bind_eq_some_iff.1 h
    have hk : r.endpoints[i]?.map Endpoint.key = some k := (r.indexed k i).1 hi
    have mem : e ∈ r.endpoints := Array.mem_of_getElem? he
    refine ⟨by simpa [toList] using mem, ?_⟩
    simpa [he] using hk
  · rintro ⟨mem, rfl⟩
    have mem' : e ∈ r.endpoints := by simpa [toList] using mem
    obtain ⟨i, he⟩ := Array.getElem?_of_mem mem'
    have hi : r.index[e.key]? = some i := (r.indexed e.key i).2 (by simp [he])
    exact Option.bind_eq_some_iff.2 ⟨i, hi, he⟩

/-! ## Growing -/

/-- A registry with an endpoint for `k`, and the position of that endpoint. -/
def ensure (r : Registry) (k : Key) (kind : String) (namespaced : Bool) : Registry × Nat :=
  match h : r.index[k]? with
  | some i => (r, i)
  | none =>
      let e : Endpoint := ⟨k, kind, namespaced, []⟩
      (⟨r.endpoints.push e, r.index.insert k r.endpoints.size, r.indexed.push h⟩,
        r.endpoints.size)

def addCapabilityAt (r : Registry) (i : Nat) (c : String) : Registry :=
  ⟨r.endpoints.modify i (·.addCapability c), r.index, r.indexed.modify i fun _ => rfl⟩

/-- The base name of an entry and the capability it tells, if any. -/
def splitName (e : Wire.ResourceEntry) : String × Option String :=
  Text.cutFirst '/' e.name

/-- Adds an entry that `group` serves at `version`. -/
def add (r : Registry) (group : Group) (version : String) (entry : Wire.ResourceEntry) :
    Except NamingFault Registry := do
  let (name, capability) := splitName entry
  let key ← Key.make? group.root group.name version name
  let (r, i) := r.ensure key entry.kind entry.namespaced
  match capability with
  | some c => return r.addCapabilityAt i c
  | none => return r

/-- Adds entries until one is refused; those before it stay. -/
def addEntries (r : Registry) (group : Group) (version : String) :
    List Wire.ResourceEntry → Registry × Option NamingFault
  | [] => (r, none)
  | entry :: rest =>
      match r.add group version entry with
      | .ok grown => grown.addEntries group version rest
      | .error fault => (r, some fault)

def addList (r : Registry) (group : Group) (version : String) (list : Wire.ResourceList) :
    Registry × Option NamingFault :=
  r.addEntries group version list.resources

end Registry
end ApiCatalog
