import Mathlib.Data.List.TakeWhile
import ApiCatalog.Registry
import ApiCatalog.Proofs.Text.Cutting

/-!
# Growth of registries

A registry grows by advertised entries. Through its list of endpoints one step is plain: the key of
the entry appears at the end unless it is there, and the endpoint of that key learns the capability
that the entry tells.

- `Advert`                  : an entry with the group that serves it and the version it is served at
- `Advert.absorb`           : one step on lists of endpoints
- `Registry.toList_add`     : one step on registries is one step on their lists
- `Registry.addEntries_spec` : a whole list of entries, which is refused as a whole or not at all
-/

namespace ApiCatalog

/-! ## Adverts -/

structure Advert where
  group : Group
  version : String
  entry : Wire.ResourceEntry
  deriving DecidableEq, Repr

namespace Advert

/-- The part of a name before its first slash. -/
def baseName (name : String) : String :=
  .ofList (name.toList.takeWhile (· != '/'))

/-- What follows the first slash of a name. -/
def suffix? (name : String) : Option String :=
  match name.toList.dropWhile (· != '/') with
  | [] => none
  | _ :: rest => some (.ofList rest)

def key (a : Advert) : Key :=
  ⟨a.group.root, a.group.name, a.version, baseName a.entry.name⟩

def capability? (a : Advert) : Option String :=
  suffix? a.entry.name

theorem splitName_eq (e : Wire.ResourceEntry) :
    Registry.splitName e = (baseName e.name, suffix? e.name) := by
  unfold Registry.splitName Text.cutFirst Text.cutFirstChars baseName suffix?
  cases cut : e.name.toList.dropWhile (· != '/') with
  | nil =>
      -- without a slash the name is its own base
      have whole := List.takeWhile_append_dropWhile (p := (· != '/')) (l := e.name.toList)
      rw [cut, List.append_nil] at whole
      simp [whole]
  | cons c rest => simp

theorem slash_not_mem_baseName (name : String) : '/' ∉ (baseName name).toList := by
  intro mem
  rw [baseName, String.toList_ofList] at mem
  have other := List.mem_takeWhile_imp mem
  simp at other

/-- A base name and a suffix are what stands before and behind the first slash. -/
theorem baseName_suffix?_iff {name base c : String} :
    baseName name = base ∧ suffix? name = some c ↔
      name = base ++ "/" ++ c ∧ '/' ∉ base.toList := by
  have parts : Text.cutFirst '/' name = (baseName name, suffix? name) :=
    splitName_eq ⟨name, "", false⟩
  rw [← Prod.mk.injEq, ← parts]
  exact Text.cutFirst_eq_some

/-! ## Steps on lists -/

/-- The endpoint that an advert opens when its key is new. -/
def opened (a : Advert) : Endpoint :=
  ⟨a.key, a.entry.kind, a.entry.namespaced, []⟩

/-- What an endpoint learns from an advert. -/
def teach (a : Advert) (e : Endpoint) : Endpoint :=
  if e.key = a.key then
    match a.capability? with
    | some c => e.addCapability c
    | none => e
  else e

/-- Opens an endpoint for the key at the end, unless there is one. -/
def appear (a : Advert) (es : List Endpoint) : List Endpoint :=
  if a.key ∈ es.map Endpoint.key then es else es ++ [a.opened]

def absorb (es : List Endpoint) (a : Advert) : List Endpoint :=
  (a.appear es).map a.teach

@[simp]
theorem key_teach (a : Advert) (e : Endpoint) : (a.teach e).key = e.key := by
  unfold teach
  split
  · split <;> rfl
  · rfl

@[simp]
theorem kind_teach (a : Advert) (e : Endpoint) : (a.teach e).kind = e.kind := by
  unfold teach
  split
  · split <;> rfl
  · rfl

@[simp]
theorem namespaced_teach (a : Advert) (e : Endpoint) : (a.teach e).namespaced = e.namespaced := by
  unfold teach
  split
  · split <;> rfl
  · rfl

theorem mem_capabilities_teach {a : Advert} {e : Endpoint} {c : String} :
    c ∈ (a.teach e).capabilities ↔
      c ∈ e.capabilities ∨ a.key = e.key ∧ a.capability? = some c := by
  unfold teach
  split
  · next same =>
      cases told : a.capability? with
      | none => simp
      | some d => simp [Endpoint.addCapability, Endpoint.mem_insertText, same, or_comm, eq_comm]
  · next other => simp [Ne.symm other]

theorem pairwise_capabilities_teach {a : Advert} {e : Endpoint}
    (h : e.capabilities.Pairwise (· < ·)) : (a.teach e).capabilities.Pairwise (· < ·) := by
  unfold teach
  split
  · split
    · exact Endpoint.pairwise_insertText h
    · exact h
  · exact h

theorem map_key_absorb (es : List Endpoint) (a : Advert) :
    (absorb es a).map Endpoint.key =
      if a.key ∈ es.map Endpoint.key then es.map Endpoint.key
      else es.map Endpoint.key ++ [a.key] := by
  have keys : (absorb es a).map Endpoint.key = (a.appear es).map Endpoint.key := by
    rw [absorb, List.map_map]
    exact List.map_congr_left fun e _ => key_teach a e
  rw [keys, appear]
  split
  · rfl
  · rw [List.map_append]
    rfl

end Advert

/-! ## Steps on registries -/

namespace Registry

theorem index_eq_some_iff {r : Registry} {k : Key} {i : Nat} :
    r.index[k]? = some i ↔ r.toList[i]?.map Endpoint.key = some k := by
  rw [r.indexed k i, toList, Array.getElem?_toList]

theorem index_eq_none_iff {r : Registry} {k : Key} :
    r.index[k]? = none ↔ k ∉ r.toList.map Endpoint.key := by
  constructor
  · intro absent mem
    obtain ⟨i, at_i⟩ := List.mem_iff_getElem?.1 mem
    rw [List.getElem?_map] at at_i
    have there := index_eq_some_iff.2 at_i
    rw [absent] at there
    cases there
  · intro fresh
    cases found : r.index[k]? with
    | none => rfl
    | some i =>
        have at_i := index_eq_some_iff.1 found
        rw [← List.getElem?_map] at at_i
        exact absurd (List.mem_of_getElem? at_i) fresh

theorem toList_addCapabilityAt {r : Registry} {k : Key} {i : Nat} (h : r.index[k]? = some i)
    (c : String) :
    (r.addCapabilityAt i c).toList =
      r.toList.map fun e => if e.key = k then e.addCapability c else e := by
  have list : (r.addCapabilityAt i c).toList = r.toList.modify i (·.addCapability c) := by
    simp [addCapabilityAt, toList]
  rw [list]
  refine List.ext_getElem? fun j => ?_
  rw [List.getElem?_modify, List.getElem?_map]
  cases at_j : r.toList[j]? with
  | none => simp
  | some e =>
      -- the key occurs at `i` and nowhere else
      have here : e.key = k ↔ i = j := by
        constructor
        · rintro rfl
          have index_j : r.index[e.key]? = some j := index_eq_some_iff.2 (by simp [at_j])
          rw [h] at index_j
          exact Option.some.inj index_j
        · rintro rfl
          simpa [at_j] using index_eq_some_iff.1 h
      by_cases hij : i = j
      · simp [hij, here.2 hij]
      · have other : e.key ≠ k := fun same => hij (here.1 same)
        simp [hij, other]

theorem ensure_spec (r : Registry) (k : Key) (kind : String) (namespaced : Bool) :
    (r.ensure k kind namespaced).1.toList =
        (if k ∈ r.toList.map Endpoint.key then r.toList
          else r.toList ++ [⟨k, kind, namespaced, []⟩]) ∧
      (r.ensure k kind namespaced).1.index[k]? = some (r.ensure k kind namespaced).2 := by
  unfold ensure
  split
  · next i found =>
      have mem : k ∈ r.toList.map Endpoint.key := by
        by_contra fresh
        rw [index_eq_none_iff.2 fresh] at found
        cases found
      exact ⟨(if_pos mem).symm, found⟩
  · next absent =>
      have fresh := index_eq_none_iff.1 absent
      rw [if_neg fresh]
      constructor
      · simp [toList]
      · simp

theorem add_emptyVersion (r : Registry) (g : Group) (e : Wire.ResourceEntry) :
    r.add g "" e = .error .emptyVersion := rfl

/-- An entry at a version that is not empty is taken, and the list of endpoints absorbs it. -/
theorem toList_add (r : Registry) (a : Advert) (h : a.version ≠ "") :
    ∃ grown, r.add a.group a.version a.entry = .ok grown ∧
      grown.toList = Advert.absorb r.toList a := by
  have made : Key.make? a.group.root a.group.name a.version (Advert.baseName a.entry.name) =
      .ok a.key := by
    unfold Key.make?
    rw [if_neg (by simpa using h)]
    rfl
  have ⟨list, index⟩ := r.ensure_spec a.key a.entry.kind a.entry.namespaced
  have appeared : (r.ensure a.key a.entry.kind a.entry.namespaced).1.toList = a.appear r.toList :=
    list
  unfold add
  rw [Advert.splitName_eq]
  dsimp only
  rw [made]
  -- `ensure` opens the endpoint of the key; only a capability is left to be taught to it
  cases told : a.capability? with
  | none =>
      have told' : Advert.suffix? a.entry.name = none := told
      refine ⟨_, by simp [told', bind, Except.bind, pure, Except.pure]; rfl, ?_⟩
      have same : a.teach = id := by
        funext e
        simp [Advert.teach, told]
      rw [Advert.absorb, same, List.map_id, ← appeared]
  | some c =>
      have told' : Advert.suffix? a.entry.name = some c := told
      refine ⟨_, by simp [told', bind, Except.bind, pure, Except.pure]; rfl, ?_⟩
      rw [toList_addCapabilityAt index, appeared, Advert.absorb]
      simp [Advert.teach, told]

/-- A list of entries is refused as a whole, at an empty version, or taken as a whole. -/
theorem addEntries_spec (r : Registry) (g : Group) (version : String)
    (entries : List Wire.ResourceEntry) :
    (version = "" → entries ≠ [] →
      r.addEntries g version entries = (r, some .emptyVersion)) ∧
    (version ≠ "" → (r.addEntries g version entries).2 = none ∧
      (r.addEntries g version entries).1.toList =
        (entries.map (Advert.mk g version)).foldl Advert.absorb r.toList) := by
  constructor
  · rintro rfl some_entry
    cases entries with
    | nil => exact absurd rfl some_entry
    | cons e rest => rfl
  · intro versioned
    -- no entry can be refused for its own sake, so none stops those behind it
    induction entries generalizing r with
    | nil => exact ⟨rfl, rfl⟩
    | cons e rest ih =>
        obtain ⟨grown, taken, list⟩ := r.toList_add ⟨g, version, e⟩ versioned
        have ⟨none_refused, all⟩ := ih grown
        rw [addEntries, taken]
        exact ⟨none_refused, by rw [all, list, List.map_cons, List.foldl_cons]⟩

end Registry
end ApiCatalog
