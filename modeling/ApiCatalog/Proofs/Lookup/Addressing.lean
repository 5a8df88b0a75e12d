import ApiCatalog.Proofs.Registry.Restriction

/-!
# Addresses of endpoints

The api version and the name of an endpoint are an address: the version is read back into the group
and version it was written from, whatever the group is called, so a lookup tries the key of the
endpoint. It tries the plural of the name before, and `api` before `oapi`. When one of these keys is
registered, the address leads to the endpoint there.

- `Group.Made`                   : groups that come from documents
- `Key.Ahead`                    : the keys that the address of a key tries before it
- `Lookup.exists_candidates_own` : what the address of a key tries
- `Registry.resolve_own_address` : where the address of an endpoint leads
-/

namespace ApiCatalog

/-! ## Groups from documents -/

/-- A group of a legacy root or of a named group, as it is read off a document. -/
inductive Group.Made : Group → Prop
  | legacy {root : ApiRoot} {doc : Wire.Versions} {g : Group}
      (taken : ofVersions root doc = .ok g) :
      Made g
  | named (info : Wire.GroupInfo) : Made (ofInfo info)

/-- Exactly the groups below `apis` have names. -/
theorem Group.Made.name_eq_none_iff {g : Group} (made : g.Made) :
    g.name = none ↔ g.root ≠ .apis := by
  cases made with
  | named info => simp [ofInfo, name, root]
  | @legacy top doc _ taken =>
      unfold ofVersions at taken
      split at taken
      · next legacy =>
          cases taken
          have other : top ≠ .apis := by
            rintro rfl
            cases legacy
          simpa [name, root] using other
      · cases taken

namespace Registry

/-- The group that a call adds to. -/
def Call.group : Call → Group
  | .entry group _ _ => group
  | .list group _ _ => group

theorem Call.group_of_accepted {c : Call} {a : Advert} (taken : a ∈ c.accepted) :
    a.group = c.group := by
  have offered : a ∈ c.offered := (List.mem_filter.1 taken).1
  cases c with
  | entry group version e =>
      cases List.mem_singleton.1 offered
      rfl
  | list group version doc =>
      obtain ⟨e, -, rfl⟩ := List.mem_map.1 offered
      rfl

theorem group_eq_none_iff_of_mem_ofCalls {calls : List Call} (made : ∀ c ∈ calls, c.group.Made)
    {e : Endpoint} (mem : e ∈ (ofCalls calls).toList) :
    e.key.group = none ↔ e.key.root ≠ .apis := by
  obtain ⟨a, told, key⟩ := (reflects_ofCalls calls).mem_key_iff.1 (List.mem_map_of_mem mem)
  obtain ⟨c, called, taken⟩ := List.mem_flatMap.1 told
  rw [← key, Advert.key, Call.group_of_accepted taken]
  exact (made c called).name_eq_none_iff

end Registry

/-! ## Keys ahead of a key -/

namespace Key

/-- The keys that a lookup for the api version and the name of `k` tries before `k`. -/
inductive Ahead (k : Key) : Key → Prop
  | apiPlural (oapi : k.root = .oapi) :
      Ahead k { k with root := .api, name := Kind.plural k.name }
  | api (oapi : k.root = .oapi) : Ahead k { k with root := .api }
  | plural (other : Kind.plural k.name ≠ k.name) : Ahead k { k with name := Kind.plural k.name }

theorem ahead_iff {k k' : Key} :
    k.Ahead k' ↔
      k.root = .oapi ∧ (k' = { k with root := .api, name := Kind.plural k.name } ∨
          k' = { k with root := .api }) ∨
        Kind.plural k.name ≠ k.name ∧ k' = { k with name := Kind.plural k.name } := by
  constructor
  · rintro (oapi | oapi | other)
    · exact .inl ⟨oapi, .inl rfl⟩
    · exact .inl ⟨oapi, .inr rfl⟩
    · exact .inr ⟨other, rfl⟩
  · rintro (⟨oapi, rfl | rfl⟩ | ⟨other, rfl⟩)
    · exact .apiPlural oapi
    · exact .api oapi
    · exact .plural other

namespace Ahead

variable {k k' : Key}

theorem ne (h : Ahead k k') : k' ≠ k := by
  cases h with
  | apiPlural oapi | api oapi =>
      intro same
      have root : ApiRoot.api = k.root := congrArg Key.root same
      rw [oapi] at root
      cases root
  | plural other => exact fun same => other (congrArg Key.name same)

theorem version_eq (h : Ahead k k') : k'.version = k.version := by
  cases h <;> rfl

theorem group_eq (h : Ahead k k') : k'.group = k.group := by
  cases h <;> rfl

end Ahead
end Key

namespace Lookup

/-- Of the names that are tried for a plain name, the name itself is the last. -/
theorem names_of_plain {name : String} (plain : Text.lower (Text.trim name) = name) :
    ∃ before, names name = before ++ [name] ∧
      ∀ n, n ∈ before ↔ Kind.plural name ≠ name ∧ n = Kind.plural name := by
  unfold names
  dsimp only
  rw [plain]
  split
  · next same => exact ⟨[], by rw [← same]; rfl, by simp [← same]⟩
  · next other => exact ⟨[Kind.plural name], rfl, by simp [Ne.symm other]⟩

/-- The address of a key tries the keys ahead of it, and then the key. -/
theorem exists_candidates_own {k : Key} (placed : k.group = none ↔ k.root ≠ .apis)
    (flat : '/' ∉ k.version.toList) (some_version : k.version ≠ "")
    (tidy : Text.trim k.apiVersion = k.apiVersion)
    (plain : Text.lower (Text.trim k.name) = k.name) (preferred : Preferred) :
    ∃ ahead after : List Key,
      candidates preferred k.apiVersion k.name = (ahead ++ k :: after).map .ok ∧
        ∀ k', k' ∈ ahead ↔ k.Ahead k' := by
  obtain ⟨root, group, version, name⟩ := k
  dsimp only at placed flat some_version plain ⊢
  obtain ⟨before, both, mem_before⟩ := names_of_plain plain
  have either (n : String) : n ∈ names name ↔ n = Kind.plural name ∨ n = name := by
    rw [mem_names, plain]
  -- where a key stands, the names before its own decide; only `oapi` has another root before it
  cases root with
  | apis =>
      obtain ⟨g, rfl⟩ := Option.ne_none_iff_exists'.1 fun unnamed => placed.1 unnamed rfl
      have tried := candidates_named rfl flat some_version tidy preferred name
      refine ⟨before.map (Key.mk .apis (some g) version), [], ?_, fun k' => ?_⟩
      · simp [tried, both]
      · simp [Key.ahead_iff, mem_before, eq_comm]
  | api =>
      obtain rfl : group = none := placed.2 ApiRoot.noConfusion
      have tried := candidates_legacy rfl flat some_version tidy preferred name
      refine ⟨before.map (Key.mk .api none version),
        (names name).map (Key.mk .oapi none version), ?_, fun k' => ?_⟩
      · simp [tried, legacyKeys, ApiRoot.legacy, both]
      · simp [Key.ahead_iff, mem_before, eq_comm]
  | oapi =>
      obtain rfl : group = none := placed.2 ApiRoot.noConfusion
      have tried := candidates_legacy rfl flat some_version tidy preferred name
      refine ⟨(names name).map (Key.mk .api none version) ++
        before.map (Key.mk .oapi none version), [], ?_, fun k' => ?_⟩
      · simp [tried, legacyKeys, ApiRoot.legacy, both]
      · simp [Key.ahead_iff, mem_before, either, eq_comm]

end Lookup

namespace Registry

/-! ## Where an address leads -/

/-- A search through keys ahead of the key of an endpoint stops at one of them, or at the
endpoint. -/
theorem findSome?_own {r : Registry} {e : Endpoint} (mem : e ∈ r.toList) {ahead : List Key}
    (fresh : e.key ∉ ahead) (after : List Key) :
    ∃ d ∈ r.toList, (ahead ++ e.key :: after).findSome? r.get? = some d ∧
      (d = e ∨ d.key ∈ ahead) ∧ (d = e ↔ ∀ o ∈ r.toList, o.key ∉ ahead) := by
  have own : r.get? e.key = some e := get?_eq_some_iff.2 ⟨mem, rfl⟩
  rw [List.findSome?_append, List.findSome?_cons, own]
  cases hit : ahead.findSome? r.get? with
  | none =>
      refine ⟨e, mem, rfl, .inl rfl, iff_of_true rfl fun o there tried => ?_⟩
      have absent := List.findSome?_eq_none_iff.1 hit o.key tried
      rw [get?_eq_some_iff.2 ⟨there, rfl⟩] at absent
      cases absent
  | some d =>
      obtain ⟨k, tried, found⟩ := List.exists_of_findSome?_eq_some hit
      obtain ⟨there, rfl⟩ := get?_eq_some_iff.1 found
      refine ⟨d, there, rfl, .inr tried, iff_of_false ?_ fun none_ahead => none_ahead d there tried⟩
      rintro rfl
      exact fresh tried

/-- In a registry of groups from documents, every endpoint can be asked for by its api version and
its name, provided that these are written as a lookup reads them. The lookup finds an endpoint of
the same group and version, and it is the one asked for unless there is another one under the plural
of the name, or, for an endpoint below `oapi`, one below `api` under either. -/
theorem resolve_own_address {calls : List Call} (made : ∀ c ∈ calls, c.group.Made)
    (preferred : Preferred) {e : Endpoint} (mem : e ∈ (ofCalls calls).toList)
    (flat : '/' ∉ e.key.version.toList) (tidy : Text.trim e.apiVersion = e.apiVersion)
    (plain : Text.lower (Text.trim e.key.name) = e.key.name) :
    let r := ofCalls calls
    ∃ d ∈ r.toList, r.resolve preferred e.apiVersion e.key.name = .ok (some d) ∧
      d.key.version = e.key.version ∧ d.key.group = e.key.group ∧
      (d = e ↔ ∀ o ∈ r.toList, ¬e.key.Ahead o.key) := by
  intro r
  obtain ⟨ahead, after, tried, order⟩ := Lookup.exists_candidates_own
    (group_eq_none_iff_of_mem_ofCalls made mem) flat (version_ne_of_mem_ofCalls mem) tidy plain
    preferred
  have fresh : e.key ∉ ahead := fun tried => ((order e.key).1 tried).ne rfl
  obtain ⟨d, there, hit, place, own⟩ := findSome?_own mem fresh after
  refine ⟨d, there, ?_, ?_, ?_, ?_⟩
  · rw [resolve, Endpoint.apiVersion, tried, firstHit_map_ok, hit]
  · rcases place with rfl | before
    · rfl
    · exact ((order d.key).1 before).version_eq
  · rcases place with rfl | before
    · rfl
    · exact ((order d.key).1 before).group_eq
  · simpa only [order] using own

/-- Pods of a group without a name, which is written in front of their version all the same. -/
def namelessPods : List Call :=
  [.entry (.ofInfo ⟨"", [⟨"/v1", "v1"⟩], none⟩) "v1" ⟨"pods", "Pod", true⟩]

theorem resolve_own_address_namelessPods :
    let e : Endpoint := ⟨⟨.apis, some "", "v1", "pods"⟩, "Pod", true, Utf8.sorted []⟩
    let r := ofCalls namelessPods
    e ∈ r.toList ∧ e.apiVersion = "/v1" ∧
      r.resolve .default "/v1" "pods" = .ok (some e) := by
  intro e r
  have mem : e ∈ r.toList :=
    (get?_eq_some_iff.1 (get?_eq_describe (reflects_ofCalls namelessPods) e.key)).1
  have made : ∀ c ∈ namelessPods, c.group.Made := by
    intro c called
    cases List.mem_singleton.1 called
    exact .named _
  obtain ⟨d, -, hit, -, -, own⟩ := resolve_own_address made .default mem (by decide) (by decide)
    (by decide)
  have one_key : ∀ a ∈ namelessPods.flatMap Call.accepted,
      a.key = ⟨.apis, some "", "v1", "pods"⟩ := by decide
  have alone : ∀ o ∈ r.toList, ¬e.key.Ahead o.key := by
    intro o listed ahead
    obtain ⟨a, told, key⟩ :=
      (reflects_ofCalls namelessPods).mem_key_iff.1 (List.mem_map_of_mem listed)
    exact ahead.ne (key.symm.trans (one_key a told))
  obtain rfl : d = e := own.2 alone
  exact ⟨mem, by decide, hit⟩

end Registry
end ApiCatalog
