import ApiCatalog.Proofs.Lookup.Candidates
import ApiCatalog.Proofs.Mapper.Answering

/-!
# The precedence of candidates

A lookup finds the endpoint of the first key that is registered, in an order that the form of the
version decides: below `apis` when it is qualified, otherwise below `api` and then below `oapi`, and
at each place under the plural of the kind before the kind itself.

- `Lookup.Tries`                : the keys that are tried, in their order
- `Lookup.exists_tries`         : every version makes a lookup try some keys
- `Registry.resolve_of_tries`   : a lookup is a search through these keys
- `Registry.resolve_precedence` : what a lookup in the registry of any calls finds
-/

namespace ApiCatalog

/-! ## Keys in their order -/

/-- The key itself, unless its version is empty. -/
def Key.checked (k : Key) : Except NamingFault Key :=
  make? k.root k.group k.version k.name

theorem Key.checked_eq (k : Key) :
    k.checked = if k.version = "" then .error .emptyVersion else .ok k := by
  simp [checked, make?]

namespace Lookup

/-- The keys that are tried under `names`, for a version of which `w` is left without blanks around
it and slashes at its end. -/
inductive Tries (preferred : Preferred) (w : String) (names : List String) : List Key → Prop
  /-- A version with a slash is cut at the last one. -/
  | qualified {group version : String} (cut : w = group ++ "/" ++ version)
      (last : '/' ∉ version.toList) :
      Tries preferred w names (names.map (.mk .apis (some group) version))
  | bare (written : w ≠ "") (flat : '/' ∉ w.toList) :
      Tries preferred w names (names.map (.mk .api none w) ++ names.map (.mk .oapi none w))
  | blank (nothing : w = "") :
      Tries preferred w names
        (names.map (.mk .api none preferred.api) ++ names.map (.mk .oapi none preferred.oapi))

theorem exists_tries (preferred : Preferred) (w : String) (names : List String) :
    ∃ keys, Tries preferred w names keys := by
  by_cases nothing : w = ""
  · exact ⟨_, .blank nothing⟩
  · by_cases flat : '/' ∈ w.toList
    · rcases Text.exists_cut flat with ⟨group, version, cut, last⟩
      exact ⟨_, .qualified cut last⟩
    · exact ⟨_, .bare nothing flat⟩

variable {preferred : Preferred} {version kind : String} {keys : List Key}

/-- The candidates are the keys that are tried under the names of the kind. -/
theorem candidates_of_tries (h : Tries preferred (bareVersion version) (names kind) keys) :
    candidates preferred version kind = keys.map Key.checked := by
  rw [candidates_eq]
  generalize bareVersion version = w at h
  cases h with
  | @qualified group v cut last =>
      have some_char : w ≠ "" := by simp [cut]
      have slash : '/' ∈ w.toList := by simp [cut]
      have parts (name : String) :
          Key.ofApiVersion? .apis w name = Key.make? .apis (some group) v name := by
        rw [cut]
        exact Key.ofApiVersion?_apiVersion (k := ⟨.apis, some group, v, name⟩) last .apis name
      simp [some_char, slash, qualified, parts, Key.checked, Function.comp_def]
  | bare written flat =>
      simp [written, flat, legacy, ApiRoot.legacy, Key.checked, Function.comp_def]
  | blank nothing =>
      simp [nothing, legacy, ApiRoot.legacy, Preferred.get?, Key.checked, Function.comp_def]

end Lookup

/-! ## The search -/

namespace Registry

open Lookup (Tries)

variable {r : Registry}

theorem get?_eq_none_iff {k : Key} : r.get? k = none ↔ k ∉ r.toList.map Endpoint.key := by
  simp [Option.eq_none_iff_forall_ne_some, get?_eq_some_iff]

theorem firstHit_append (a b : List (Except NamingFault Key)) :
    r.firstHit (a ++ b) =
      match r.firstHit a with
      | .ok none => r.firstHit b
      | other => other := by
  induction a with
  | nil => rfl
  | cons first rest ih =>
      cases first with
      | error fault => rfl
      | ok k =>
          simp only [List.cons_append, firstHit]
          cases r.get? k with
          | none => exact ih
          | some e => rfl

/-- To try the same name again changes nothing. -/
theorem firstHit_names (f : String → Except NamingFault Key) (kind : String) :
    r.firstHit ((Lookup.names kind).map f) =
      r.firstHit ([Kind.plural kind, Text.lower (Text.trim kind)].map f) := by
  unfold Lookup.names
  dsimp only
  split
  · next same =>
      simp only [same, List.map_cons, List.map_nil]
      cases f (Kind.plural kind) with
      | error fault => rfl
      | ok k =>
          simp only [firstHit]
          cases r.get? k <;> rfl
  · rfl

/-- A search that ends in no fault finds the first key that is registered. -/
theorem firstHit_checked {keys : List Key} {found : Option Endpoint}
    (h : r.firstHit (keys.map Key.checked) = .ok found) :
    found.map Endpoint.key = keys.find? (· ∈ r.toList.map Endpoint.key) ∧
      ∀ e, found = some e → e ∈ r.toList := by
  -- a fault ends the search, so every key before a hit was well-formed and is not registered
  induction keys with
  | nil =>
      cases h
      simp
  | cons k rest ih =>
      rw [List.map_cons, Key.checked_eq] at h
      split at h
      · cases h
      · rw [firstHit] at h
        cases hit : r.get? k with
        | none =>
            rw [hit] at h
            have absent := get?_eq_none_iff.1 hit
            rw [List.find?_cons_of_neg (by simpa using absent)]
            exact ih h
        | some e =>
            rw [hit] at h
            cases h
            rcases get?_eq_some_iff.1 hit with ⟨mem, key⟩
            have there : k ∈ r.toList.map Endpoint.key := List.mem_map.2 ⟨e, mem, key⟩
            refine ⟨?_, fun d same => ?_⟩
            · rw [List.find?_cons_of_pos (by simpa using there), Option.map_some, key]
            · cases same
              exact mem

/-- A lookup is a search through the keys that are tried under the two names of the kind. -/
theorem resolve_of_tries {preferred : Preferred} {version kind : String} {keys : List Key}
    (h : Tries preferred (Lookup.bareVersion version)
      [Kind.plural kind, Text.lower (Text.trim kind)] keys) :
    r.resolve preferred version kind = r.firstHit (keys.map Key.checked) := by
  unfold resolve
  cases h with
  | qualified cut last =>
      rw [Lookup.candidates_of_tries (.qualified cut last)]
      simp only [List.map_map, firstHit_names]
  | bare written flat =>
      rw [Lookup.candidates_of_tries (.bare written flat)]
      simp only [List.map_append, List.map_map, firstHit_append, firstHit_names]
  | blank nothing =>
      rw [Lookup.candidates_of_tries (.blank nothing)]
      simp only [List.map_append, List.map_map, firstHit_append, firstHit_names]

/-- Nothing is registered at an empty version. -/
theorem version_ne_of_mem_ofCalls {calls : List Call} {e : Endpoint}
    (mem : e ∈ (ofCalls calls).toList) : e.key.version ≠ "" := by
  have told := (reflects_ofCalls calls).mem_key_iff.1 (List.mem_map_of_mem mem)
  rcases told with ⟨a, accepted, key⟩
  rcases List.mem_flatMap.1 accepted with ⟨c, -, taken⟩
  have versioned : a.version ≠ "" := by simpa using (List.mem_filter.1 taken).2
  rw [← key]
  exact versioned

/-- Among keys with versions, a registered one is found or another one before it. -/
theorem firstHit_of_registered {keys : List Key} (versioned : ∀ k ∈ keys, k.version ≠ "")
    {e : Endpoint} (mem : e ∈ r.toList) (tried : e.key ∈ keys) (rest : List Key) :
    ∃ d, r.firstHit ((keys ++ rest).map Key.checked) = .ok (some d) ∧ d.key ∈ keys := by
  have made : keys.map Key.checked = keys.map .ok := by
    refine List.map_congr_left fun k there => ?_
    rw [Key.checked_eq, if_neg (versioned k there)]
  have hit : (keys.findSome? r.get?).isSome = true := by
    rw [List.findSome?_isSome_iff]
    exact ⟨e.key, tried, by simp [get?_eq_some_iff.2 ⟨mem, rfl⟩]⟩
  rcases Option.isSome_iff_exists.1 hit with ⟨d, found⟩
  have first : r.firstHit (keys.map .ok) = .ok (some d) := by rw [firstHit_map_ok, found]
  refine ⟨d, by rw [List.map_append, firstHit_append, made, first], ?_⟩
  simpa using (firstHit_eq_some first).1

/-- What is registered below `api` is found before anything below `oapi`. -/
theorem firstHit_of_api {version other : String} {names : List String} {e : Endpoint}
    (versioned : e.key.version ≠ "") (mem : e ∈ r.toList) (api : e.key.root = .api)
    (tried : e.key ∈ names.map (Key.mk .api none version) ++ names.map (Key.mk .oapi none other)) :
    ∃ d, r.firstHit ((names.map (Key.mk .api none version) ++
        names.map (Key.mk .oapi none other)).map Key.checked) = .ok (some d) ∧
      d.key.root = .api := by
  have below : e.key ∈ names.map (Key.mk .api none version) := by
    rcases List.mem_append.1 tried with here | there
    · exact here
    · rcases List.mem_map.1 there with ⟨name, -, key⟩
      rw [← key] at api
      cases api
  -- only the version below `api` needs to be written: a fault at `oapi` would come after the hit
  have written : version ≠ "" := by
    rcases List.mem_map.1 below with ⟨name, -, key⟩
    rwa [← key] at versioned
  have all_versioned : ∀ k ∈ names.map (Key.mk .api none version), k.version ≠ "" := by
    intro k there
    rcases List.mem_map.1 there with ⟨name, -, rfl⟩
    exact written
  rcases firstHit_of_registered all_versioned mem below _ with ⟨d, hit, candidate⟩
  rcases List.mem_map.1 candidate with ⟨name, -, key⟩
  exact ⟨d, hit, by rw [← key]⟩

/-! ## Lookups -/

/-- What a lookup finds. For a version there are keys that are tried, under the plural of the kind
and under the kind itself; what is found is registered, under the first of these keys that is, and
when nothing is found none of them is registered. With a preferred version for both legacy roots a
lookup ends in no fault. What is registered below `api` under either name comes before all that is
below `oapi`. -/
theorem resolve_precedence (calls : List Call) (preferred : Preferred) (version kind : String) :
    let r := ofCalls calls
    let w := Text.dropTrailing '/' (Text.trim version)
    let plural := Kind.plural kind
    let given := Text.lower (Text.trim kind)
    let registered := r.toList.map Endpoint.key
    (∃ keys, Tries preferred w [plural, given] keys) ∧
    ∀ keys, Tries preferred w [plural, given] keys →
      (∀ e, r.resolve preferred version kind = .ok (some e) →
        e ∈ r.toList ∧ keys.find? (· ∈ registered) = some e.key) ∧
      (r.resolve preferred version kind = .ok none → ∀ k ∈ keys, k ∉ registered) ∧
      (Mapper.Complete preferred → ∃ found, r.resolve preferred version kind = .ok found) ∧
      ∀ e ∈ r.toList, e.key ∈ keys → e.key.root = .api →
        ∃ d, r.resolve preferred version kind = .ok (some d) ∧ d.key.root = .api := by
  intro r w plural given registered
  refine ⟨Lookup.exists_tries preferred w _, fun keys tries => ?_⟩
  have search : r.resolve preferred version kind = r.firstHit (keys.map Key.checked) :=
    resolve_of_tries tries
  refine ⟨?_, ?_, ?_, ?_⟩
  · intro e found
    rw [search] at found
    have ⟨first, mem⟩ := firstHit_checked found
    exact ⟨mem e rfl, first.symm⟩
  · intro nothing k tried there
    rw [search] at nothing
    have none_registered := (firstHit_checked nothing).1.symm
    exact List.find?_eq_none.1 none_registered k tried (by simpa [registered] using there)
  · intro complete
    exact @Mapper.resolve_ne_error ⟨Discovery.everything, preferred⟩ complete r version kind
  · intro e mem tried api
    have versioned := version_ne_of_mem_ofCalls mem
    rw [search]
    cases tries with
    | qualified cut last =>
        rcases List.mem_map.1 tried with ⟨name, -, key⟩
        rw [← key] at api
        cases api
    | bare written flat => exact firstHit_of_api versioned mem api tried
    | blank nothing => exact firstHit_of_api versioned mem api tried

end Registry
end ApiCatalog
