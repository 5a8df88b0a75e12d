import ApiCatalog.Lookup
import ApiCatalog.Proofs.Key.Reading
import ApiCatalog.Proofs.Registry.Reference
import ApiCatalog.Proofs.Text.Trimming

/-!
# Candidates of a lookup

The keys that a lookup tries, in their order, and what the first registered one says.

- `Lookup.mem_names`              : the two names that a kind may stand for
- `Lookup.candidates_named`, `Lookup.candidates_legacy` : the keys of a tidy api version
- `Lookup.exists_keys_candidates` : with preferred versions, every candidate is a key
- `Registry.firstHit_map_ok`      : the search, as a search for the first key that is registered
-/

namespace ApiCatalog

namespace Lookup

theorem mem_names {kind name : String} :
    name ∈ names kind ↔ name = Kind.plural kind ∨ name = Text.lower (Text.trim kind) := by
  unfold names
  dsimp only
  split
  · next same => simp [same]
  · simp

/-- The plural of a kind is tried before the kind itself. -/
theorem names_eq_cons (kind : String) : ∃ rest, names kind = Kind.plural kind :: rest := by
  unfold names
  dsimp only
  split
  · exact ⟨_, rfl⟩
  · exact ⟨_, rfl⟩

/-! ## Keys of a tidy version -/

/-- An api version that neither blanks surround nor slashes end is taken as it is given. -/
theorem bareVersion_eq_self {version : String} (tidy : Text.trim version = version)
    (last : version.toList.getLast? ≠ some '/') : bareVersion version = version := by
  rw [bareVersion, tidy, Text.dropTrailing_eq_self last]

theorem getLast?_apiVersion_ne {k : Key} (flat : '/' ∉ k.version.toList)
    (some_version : k.version ≠ "") : k.apiVersion.toList.getLast? ≠ some '/' := by
  have last : k.version.toList.getLast? ≠ some '/' :=
    fun last => flat (List.mem_of_getLast? last)
  have chars : k.version.toList ≠ [] := by simpa using some_version
  unfold Key.apiVersion
  cases k.group with
  | none => exact last
  | some group =>
      simp only [String.toList_append]
      rw [List.getLast?_append_of_ne_nil _ chars]
      exact last

theorem candidates_eq (preferred : Preferred) (version kind : String) :
    candidates preferred version kind =
      if bareVersion version = "" then legacy preferred.get? (names kind)
      else if '/' ∈ (bareVersion version).toList then qualified (bareVersion version) (names kind)
      else legacy (fun _ => some (bareVersion version)) (names kind) := by
  unfold candidates
  simp

theorem candidates_named {k : Key} {group : String} (named : k.group = some group)
    (flat : '/' ∉ k.version.toList) (some_version : k.version ≠ "")
    (tidy : Text.trim k.apiVersion = k.apiVersion) (preferred : Preferred) (kind : String) :
    candidates preferred k.apiVersion kind =
      (names kind).map fun name => .ok ⟨.apis, k.group, k.version, name⟩ := by
  have bare := bareVersion_eq_self tidy (getLast?_apiVersion_ne flat some_version)
  have version : k.apiVersion = group ++ "/" ++ k.version := by rw [Key.apiVersion, named]
  -- a group in front makes it a qualified version
  have some_char : k.apiVersion ≠ "" := by simp [version]
  have slash : '/' ∈ k.apiVersion.toList := by simp [version]
  rw [candidates_eq, bare, if_neg some_char, if_pos slash, qualified]
  refine List.map_congr_left fun name _ => ?_
  rw [Key.ofApiVersion?_apiVersion flat, Key.make?_eq_ok some_version]

/-- The keys below the legacy roots at one version. -/
def legacyKeys (version kind : String) : List Key :=
  ApiRoot.legacy.flatMap fun root => (names kind).map (Key.mk root none version)

theorem candidates_legacy {k : Key} (unnamed : k.group = none) (flat : '/' ∉ k.version.toList)
    (some_version : k.version ≠ "") (tidy : Text.trim k.apiVersion = k.apiVersion)
    (preferred : Preferred) (kind : String) :
    candidates preferred k.apiVersion kind = (legacyKeys k.version kind).map .ok := by
  have bare := bareVersion_eq_self tidy (getLast?_apiVersion_ne flat some_version)
  have version : k.apiVersion = k.version := by rw [Key.apiVersion, unnamed]
  rw [version] at bare ⊢
  rw [candidates_eq, bare, if_neg some_version, if_neg flat]
  simp only [legacy, legacyKeys, ApiRoot.legacy, Key.make?_eq_ok some_version, List.map_flatMap,
    List.map_map]
  rfl

theorem findSome?_names {α : Type} (f : String → Option α) (kind : String) :
    (names kind).findSome? f = (f (Kind.plural kind)).or (f (Text.lower (Text.trim kind))) := by
  unfold names
  dsimp only
  split
  · next same => cases found : f (Kind.plural kind) <;> simp [same, found]
  · cases found : f (Kind.plural kind) <;> simp [found]

/-- The plural comes before the kind itself, and `api` before `oapi`. -/
theorem findSome?_legacyKeys {α : Type} (f : Key → Option α) (version kind : String) :
    (legacyKeys version kind).findSome? f =
      ((f ⟨.api, none, version, Kind.plural kind⟩).or
        (f ⟨.api, none, version, Text.lower (Text.trim kind)⟩)).or
      ((f ⟨.oapi, none, version, Kind.plural kind⟩).or
        (f ⟨.oapi, none, version, Text.lower (Text.trim kind)⟩)) := by
  have below (root : ApiRoot) : ((names kind).map (Key.mk root none version)).findSome? f =
      (f ⟨root, none, version, Kind.plural kind⟩).or
        (f ⟨root, none, version, Text.lower (Text.trim kind)⟩) := by
    rw [List.findSome?_map, findSome?_names]
    rfl
  rw [legacyKeys, ApiRoot.legacy, List.flatMap_cons, List.flatMap_cons, List.flatMap_nil,
    List.append_nil, List.findSome?_append, below, below]

/-! ## Keys of any version -/

theorem name_mem_of_legacy {versionAt : ApiRoot → Option String} {names : List String} {k : Key}
    (h : .ok k ∈ legacy versionAt names) : k.name ∈ names := by
  obtain ⟨root, -, mem⟩ := List.mem_flatMap.1 h
  cases version : versionAt root with
  | none => simp [version] at mem
  | some v =>
      simp only [version, List.mem_map] at mem
      obtain ⟨name, there, made⟩ := mem
      obtain ⟨-, rfl⟩ := Key.make?_eq_ok_iff.1 made
      exact there

theorem name_mem_of_candidates {preferred : Preferred} {version kind : String} {k : Key}
    (h : .ok k ∈ candidates preferred version kind) : k.name ∈ names kind := by
  rw [candidates_eq] at h
  split at h
  · exact name_mem_of_legacy h
  · split at h
    · obtain ⟨name, there, made⟩ := List.mem_map.1 h
      obtain ⟨-, rfl, -⟩ := Key.ofApiVersion?_eq_ok_iff.1 made
      exact there
    · exact name_mem_of_legacy h

theorem exists_keys_legacy {versionAt : ApiRoot → Option String}
    (h : ∀ root, versionAt root ≠ some "") (names : List String) :
    ∃ keys : List Key, legacy versionAt names = keys.map .ok := by
  unfold legacy
  induction ApiRoot.legacy with
  | nil => exact ⟨[], rfl⟩
  | cons root rest ih =>
      obtain ⟨later, later_eq⟩ := ih
      rw [List.flatMap_cons, later_eq]
      cases version : versionAt root with
      | none =>
          -- a root without a version has no candidates
          exact ⟨later, rfl⟩
      | some v =>
          have some_version : v ≠ "" := by
            rintro rfl
            exact h root version
          exact ⟨names.map (⟨root, none, v, ·⟩) ++ later, by simp [Key.make?_eq_ok some_version]⟩

theorem exists_keys_qualified {bare : String} (some_char : bare ≠ "")
    (last : bare.toList.getLast? ≠ some '/') (names : List String) :
    ∃ keys : List Key, qualified bare names = keys.map .ok := by
  have behind : (Text.cutLast '/' bare).2 ≠ "" := by
    rw [Ne, Text.cutLast_eq_empty_iff]
    exact fun ends => ends.elim some_char last
  unfold qualified Key.ofApiVersion?
  generalize Text.cutLast '/' bare = parts at behind ⊢
  rcases parts with ⟨group, version⟩
  have some_version : version ≠ "" := behind
  refine ⟨names.map (⟨.apis, group, version, ·⟩), ?_⟩
  dsimp only
  simp [Key.make?_eq_ok some_version]

/-- When the preferred versions are there, every candidate is a key: a bare version does not end
in a slash, so there is something behind its last one. -/
theorem exists_keys_candidates {preferred : Preferred} (h : ∀ root, preferred.get? root ≠ some "")
    (version kind : String) :
    ∃ keys : List Key, candidates preferred version kind = keys.map .ok := by
  rw [candidates_eq]
  split
  · exact exists_keys_legacy h _
  · next some_char =>
      split
      · exact exists_keys_qualified some_char (Text.getLast?_dropTrailing_ne '/' _) _
      · exact exists_keys_legacy (fun _ same => some_char (Option.some.inj same)) _

end Lookup

namespace Registry

theorem firstHit_map_ok (r : Registry) (keys : List Key) :
    r.firstHit (keys.map .ok) = .ok (keys.findSome? r.get?) := by
  induction keys with
  | nil => rfl
  | cons k rest ih =>
      rw [List.map_cons, firstHit, List.findSome?_cons]
      cases r.get? k with
      | none => exact ih
      | some e => rfl

/-- What a search finds is registered under one of the candidates. -/
theorem firstHit_eq_some {r : Registry} {candidates : List (Except NamingFault Key)} {e : Endpoint}
    (h : r.firstHit candidates = .ok (some e)) :
    .ok e.key ∈ candidates ∧ r.get? e.key = some e := by
  induction candidates with
  | nil => cases h
  | cons first rest ih =>
      cases first with
      | error fault => cases h
      | ok k =>
          rw [firstHit] at h
          cases found : r.get? k with
          | none =>
              rw [found] at h
              exact ⟨List.mem_cons_of_mem _ (ih h).1, (ih h).2⟩
          | some d =>
              rw [found] at h
              cases h
              have key : e.key = k := (get?_eq_some_iff.1 found).2
              rw [key]
              exact ⟨List.mem_cons_self, found⟩

/-- What a lookup finds is registered, under a name of the kind. -/
theorem mem_of_resolve {r : Registry} {preferred : Preferred} {version kind : String}
    {e : Endpoint} (found : r.resolve preferred version kind = .ok (some e)) :
    e ∈ r.toList ∧ e.key.name ∈ Lookup.names kind := by
  have ⟨candidate, hit⟩ := firstHit_eq_some found
  exact ⟨(get?_eq_some_iff.1 hit).1, Lookup.name_mem_of_candidates candidate⟩

end Registry
end ApiCatalog
