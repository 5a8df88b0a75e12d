import ApiCatalog.Mapper
import ApiCatalog.Proofs.Discovery.Parts
import ApiCatalog.Proofs.Lookup.Candidates

/-!
# What resolves is what was advertised

An endpoint that a mapper finds stands in a list that the cluster served for a group that is kept,
and what stands in such a list is found by its api version and kind.

- `Discovery.Advertised` : an entry of a list that was served at the group and version of a key
- `Discovery.Collected`  : some such entry names the collection of a key
- `Mapper.endpointFor_advertised` : what an answered query tells about the lists, and the other way
  round
-/

namespace ApiCatalog
namespace Discovery

/-! ## Collections -/

/-- `entry` stands in a list that was served for a kept group, at the group and version of `k`. -/
def Advertised (groups : List Group) (log : List Exchange) (k : Key) (entry : Wire.ResourceEntry) :
    Prop :=
  ∃ g ∈ groups, g.root = k.root ∧ g.name = k.group ∧ k.version ∈ g.versions ∧
    ∃ doc, Served groups log g k.version doc ∧ entry ∈ doc.resources

/-- An entry that is advertised has the name of `k` in front of its first slash. -/
def Collected (groups : List Group) (log : List Exchange) (k : Key) : Prop :=
  ∃ entry, Advertised groups log k entry ∧ Advert.baseName entry.name = k.name

/-- A group that is kept has a name exactly if it stands below `apis`. -/
theorem root_of_mem_kept {mode : Mode} {api oapi : Wire.Versions} {list : Wire.GroupList}
    {g : Group} (h : g ∈ kept mode api oapi list) :
    (g.root = .apis ∧ ∃ name, g.name = some name) ∨
      ((g.root = .api ∨ g.root = .oapi) ∧ g.name = none) := by
  rcases List.mem_cons.1 h with rfl | h
  · exact .inr ⟨.inl rfl, rfl⟩
  · rcases List.mem_cons.1 h with rfl | h
    · exact .inr ⟨.inr rfl, rfl⟩
    · obtain ⟨info, -, rfl⟩ := List.mem_map.1 h
      exact .inl ⟨rfl, info.name, rfl⟩

theorem root_of_collected {mode : Mode} {log : List Exchange} {groups : List Group} {k : Key}
    (keeps : Keeps mode log groups) (h : Collected groups log k) :
    (k.root = .apis ∧ ∃ name, k.group = some name) ∨
      ((k.root = .api ∨ k.root = .oapi) ∧ k.group = none) := by
  rcases keeps with ⟨_, _, _, _, api, oapi, list, -, -, -, -, rfl⟩
  rcases h with ⟨_, ⟨g, mem, root, name, -⟩, -⟩
  rw [← root, ← name]
  exact root_of_mem_kept mem

section Completed

variable {mode : Mode} {log : List Exchange} {catalog : Catalog}
  (done : (pass mode).result? log = some (.ok catalog))

include done

theorem advertised_iff {k : Key} {entry : Wire.ResourceEntry} :
    Advertised catalog.groups log k entry ↔
      ∃ a ∈ told (listings catalog.groups) (listed log),
        a.key = { k with name := Advert.baseName entry.name } ∧ a.entry = entry := by
  constructor
  · rintro ⟨g, -, root, name, -, doc, served, there⟩
    refine ⟨⟨g, k.version, entry⟩, (mem_told_pass done).2 ⟨doc, served, there⟩, ?_, rfl⟩
    rw [Advert.key, root, name]
  · rintro ⟨⟨g, version, _⟩, mem, key, rfl⟩
    obtain ⟨doc, served, there⟩ := (mem_told_pass done).1 mem
    have same : version = k.version := congrArg Key.version key
    subst same
    have ⟨in_groups, in_versions⟩ := mem_groups_of_served served
    exact ⟨g, in_groups, congrArg Key.root key, congrArg Key.group key, in_versions, doc, served,
      there⟩

theorem collected_iff {k : Key} :
    Collected catalog.groups log k ↔ ∃ e, catalog.registry.get? k = some e := by
  have keys : (∃ e, catalog.registry.get? k = some e) ↔
      k ∈ catalog.registry.toList.map Endpoint.key := by
    simp only [Registry.get?_eq_some_iff, List.mem_map]
  rw [keys, (reflects_pass done).mem_key_iff]
  constructor
  · rintro ⟨entry, there, base⟩
    obtain ⟨a, mem, key, -⟩ := (advertised_iff done).1 there
    exact ⟨a, mem, by rw [key, base]⟩
  · rintro ⟨a, mem, rfl⟩
    exact ⟨a.entry, (advertised_iff done).2 ⟨a, mem, rfl, rfl⟩, rfl⟩

theorem collected_of_mem {e : Endpoint} (mem : e ∈ catalog.registry.toList) :
    Collected catalog.groups log e.key :=
  (collected_iff done).2 ⟨e, Registry.get?_eq_some_iff.2 ⟨mem, rfl⟩⟩

/-- An endpoint has no group exactly below the legacy roots. -/
theorem group_eq_none_iff {e : Endpoint} (mem : e ∈ catalog.registry.toList) :
    e.key.group = none ↔ e.key.root = .api ∨ e.key.root = .oapi := by
  have keeps := (result?_pass_ok.1 done).1
  rcases root_of_collected keeps (collected_of_mem done mem) with
    ⟨apis, name, named⟩ | ⟨legacy, unnamed⟩
  · simp [apis, named]
  · simp [legacy, unnamed]

theorem not_collected_iff {k : Key} :
    ¬Collected catalog.groups log k ↔ catalog.registry.get? k = none := by
  rw [collected_iff done, Option.eq_none_iff_forall_ne_some, not_exists]

/-- The capabilities of an endpoint are what the lists name behind its name and a slash. -/
theorem supports_iff {e : Endpoint} (mem : e ∈ catalog.registry.toList) (c : String) :
    e.supports c = true ↔ ∃ entry, Advertised catalog.groups log e.key entry ∧
      entry.name = e.key.name ++ "/" ++ c := by
  have told_of_key := (reflects_pass done).mem_key_iff.1 (List.mem_map_of_mem mem)
  have flat : '/' ∉ e.key.name.toList := by
    obtain ⟨a, -, key⟩ := told_of_key
    rw [← key]
    exact Advert.slash_not_mem_baseName a.entry.name
  -- a name without a slash and a capability are all there is to the name of an entry
  have named (a : Advert) : Advert.baseName a.entry.name = e.key.name ∧ a.capability? = some c ↔
      a.entry.name = e.key.name ++ "/" ++ c := by
    rw [Advert.capability?, Advert.baseName_suffix?_iff]
    simp [flat]
  have listed_iff : e.supports c = true ↔ c ∈ e.capabilities := by simp [Endpoint.supports]
  rw [listed_iff, (reflects_pass done).capabilities e mem c]
  constructor
  · rintro ⟨a, there, key, told⟩
    have base : Advert.baseName a.entry.name = e.key.name := congrArg Key.name key
    refine ⟨a.entry, (advertised_iff done).2 ⟨a, there, ?_, rfl⟩, (named a).1 ⟨base, told⟩⟩
    rw [key, base]
  · rintro ⟨entry, there, name⟩
    obtain ⟨a, mem, key, rfl⟩ := (advertised_iff done).1 there
    have ⟨base, told⟩ := (named a).2 name
    exact ⟨a, mem, by rw [key, base], told⟩

end Completed

/-! ## Deployments and pods -/

/-- An entry of a list that was asked for is advertised. -/
theorem advertised_of_listing {groups : List Group} {log : List Exchange} {g : Group}
    {version name : String} {doc : Wire.ResourceList} {entry : Wire.ResourceEntry}
    (pair : ((g, version), listing g version doc) ∈ (listings groups).zip (listed log))
    (made : Http.Request.get? (Client.discoveryUri (g.pathFor version)) =
      .ok (listing g version doc).1)
    (mem : entry ∈ doc.resources) :
    Advertised groups log ⟨g.root, g.name, version, name⟩ entry := by
  have served : Served groups log g version doc := ⟨_, _, pair, made, Client.listOf_served doc⟩
  have ⟨in_groups, in_versions⟩ := mem_groups_of_served served
  exact ⟨g, in_groups, rfl, rfl, in_versions, doc, served, mem⟩

def deploymentsKey : Key :=
  ⟨.apis, some "apps", "v1", "deployments"⟩

def podsKey : Key :=
  ⟨.api, none, "v1", "pods"⟩

theorem advertised_deployments :
    Advertised joblessGroups joblessLog deploymentsKey ⟨"deployments", "Deployment", true⟩ :=
  @advertised_of_listing _ _ (.named "apps" ["v1"] none) "v1" "deployments" deploymentList _
    (List.mem_cons_of_mem _ List.mem_cons_self) rfl List.mem_cons_self

theorem advertised_podLogs :
    Advertised joblessGroups joblessLog podsKey ⟨"pods/log", "Pod", false⟩ :=
  @advertised_of_listing _ _ (.legacy .api ["v1"]) "v1" "pods" podList _ List.mem_cons_self rfl
    List.mem_cons_self

end Discovery

/-! ## Queries -/

namespace Mapper

open Discovery

theorem endpointFor_eq_ok {m : Mapper} {catalog : Catalog} {version kind : String} {e : Endpoint} :
    m.endpointFor catalog version kind = .ok e ↔
      catalog.registry.resolve m.preferred version kind = .ok (some e) := by
  unfold endpointFor find
  cases catalog.registry.resolve m.preferred version kind with
  | error fault => simp [Except.mapError, bind, Except.bind]
  | ok found =>
      cases found with
      | none => exact ⟨nofun, nofun⟩
      | some d =>
          -- either side says that `d` is `e`
          constructor
          · intro found
            cases found
            rfl
          · intro found
            cases found
            rfl

/-- The endpoint that an answered query is about. -/
theorem endpointFor_sound {m : Mapper} {catalog : Catalog} {version kind : String} {e : Endpoint}
    (h : m.endpointFor catalog version kind = .ok e) :
    e ∈ catalog.registry.toList ∧ e.key.name ∈ Lookup.names kind :=
  Registry.mem_of_resolve (endpointFor_eq_ok.1 h)

/-- Below `apis` the first candidate is the key itself, when its name is the plural of the kind. -/
theorem endpointFor_named {m : Mapper} {catalog : Catalog} {k : Key} {kind group : String}
    {e : Endpoint} (named : k.group = some group) (root : k.root = .apis)
    (flat : '/' ∉ k.version.toList) (some_version : k.version ≠ "")
    (tidy : Text.trim k.apiVersion = k.apiVersion) (plural : Kind.plural kind = k.name)
    (there : catalog.registry.get? k = some e) :
    m.endpointFor catalog k.apiVersion kind = .ok e := by
  obtain ⟨rest, names⟩ := Lookup.names_eq_cons kind
  have first : (⟨.apis, k.group, k.version, Kind.plural kind⟩ : Key) = k := by
    rw [plural, ← root]
  rw [endpointFor_eq_ok]
  calc
    catalog.registry.resolve m.preferred k.apiVersion kind =
        catalog.registry.firstHit ((Lookup.names kind).map fun name =>
          .ok ⟨.apis, k.group, k.version, name⟩) := by
        rw [Registry.resolve, Lookup.candidates_named named flat some_version tidy]
    _ = catalog.registry.firstHit (.ok k :: rest.map fun name =>
          .ok ⟨.apis, k.group, k.version, name⟩) := by
        rw [names, List.map_cons, first]
    _ = .ok (some e) := by
        rw [Registry.firstHit, there]

/-- Without a group, what is registered below `api` comes before what is registered below `oapi`,
and the plural of the kind before the kind itself. -/
theorem endpointFor_legacy {m : Mapper} {catalog : Catalog} {k : Key} {kind : String}
    (unnamed : k.group = none) (flat : '/' ∉ k.version.toList) (some_version : k.version ≠ "")
    (tidy : Text.trim k.apiVersion = k.apiVersion) (plural : Kind.plural kind = k.name)
    {e : Endpoint} :
    m.endpointFor catalog k.apiVersion kind = .ok e ↔
      ((catalog.registry.get? ⟨.api, none, k.version, k.name⟩).or
        (catalog.registry.get? ⟨.api, none, k.version, Text.lower (Text.trim kind)⟩)).or
      ((catalog.registry.get? ⟨.oapi, none, k.version, k.name⟩).or
        (catalog.registry.get? ⟨.oapi, none, k.version, Text.lower (Text.trim kind)⟩)) =
        some e := by
  rw [endpointFor_eq_ok, Registry.resolve,
    Lookup.candidates_legacy unnamed flat some_version tidy m.preferred kind,
    Registry.firstHit_map_ok, Lookup.findSome?_legacyKeys, plural, Except.ok.injEq]

/-- What a lookup of a collection without a group finds: the collection itself below `api`, and
below `oapi` the first of three collections that is there. -/
theorem endpointFor_collected_legacy {m : Mapper} {log : List Exchange} {catalog : Catalog}
    (done : (pass m.mode).result? log = some (.ok catalog)) {k : Key} {kind : String}
    (there : Collected catalog.groups log k) (legacy : k.root = .api ∨ k.root = .oapi)
    (unnamed : k.group = none) (flat : '/' ∉ k.version.toList) (some_version : k.version ≠ "")
    (tidy : Text.trim k.apiVersion = k.apiVersion) (plural_eq : Kind.plural kind = k.name) :
    let plural : Key := ⟨.api, none, k.version, k.name⟩
    let given : Key := ⟨.api, none, k.version, Text.lower (Text.trim kind)⟩
    ∃ e, m.endpointFor catalog k.apiVersion kind = .ok e ∧
      catalog.registry.get? e.key = some e ∧
      (k.root = .api → e.key = k) ∧
      (k.root = .oapi →
        (Collected catalog.groups log plural → e.key = plural) ∧
        (¬Collected catalog.groups log plural → Collected catalog.groups log given →
          e.key = given) ∧
        (¬Collected catalog.groups log plural → ¬Collected catalog.groups log given →
          e.key = k)) := by
  intro plural given
  have own : (⟨k.root, none, k.version, k.name⟩ : Key) = k := by rw [← unnamed]
  have search {d : Endpoint} :=
    @endpointFor_legacy m catalog k kind unnamed flat some_version tidy plural_eq d
  -- whatever is found first below `api` is what the query gives
  by_cases shadowed : Collected catalog.groups log plural
  · rcases (collected_iff done).1 shadowed with ⟨d, before⟩
    have found : m.endpointFor catalog k.apiVersion kind = .ok d := by
      rw [search, before]
      rfl
    have key : d.key = plural := (Registry.get?_eq_some_iff.1 before).2
    refine ⟨d, found, by rw [key, before], ?_, fun _ => ⟨fun _ => key, ?_, ?_⟩⟩
    · intro api
      rw [key, ← own, api]
    · exact fun absent => absurd shadowed absent
    · exact fun absent => absurd shadowed absent
  · have absent := (not_collected_iff done).1 shadowed
    have below : k.root ≠ .api := by
      intro api
      have same : plural = k := by rw [← own, api]
      exact shadowed (same ▸ there)
    by_cases shadowed_given : Collected catalog.groups log given
    · rcases (collected_iff done).1 shadowed_given with ⟨d, before⟩
      have found : m.endpointFor catalog k.apiVersion kind = .ok d := by
        rw [search, absent, before]
        rfl
      have key : d.key = given := (Registry.get?_eq_some_iff.1 before).2
      refine ⟨d, found, by rw [key, before], fun api => absurd api below, fun _ => ⟨?_, ?_, ?_⟩⟩
      · exact fun present => absurd present shadowed
      · exact fun _ _ => key
      · exact fun _ gone => absurd shadowed_given gone
    · have absent_given := (not_collected_iff done).1 shadowed_given
      rcases legacy with api | oapi
      · exact absurd api below
      · rcases (collected_iff done).1 there with ⟨e, registered⟩
        have found : m.endpointFor catalog k.apiVersion kind = .ok e := by
          rw [search, absent, absent_given, ← oapi, own, registered]
          rfl
        have key : e.key = k := (Registry.get?_eq_some_iff.1 registered).2
        refine ⟨e, found, by rw [key, registered], fun _ => key, fun _ => ⟨?_, ?_, ?_⟩⟩
        · exact fun present => absurd present shadowed
        · exact fun _ present => absurd present shadowed_given
        · exact fun _ _ => key

/-- What resolves is what was advertised. After a pass that completes, an endpoint that a query
finds is a collection of a list that was served, under one of the two names of the kind, and it
supports what these lists say it does. Whatever a list names at a plain version is found by its api
version and a kind with that plural; only below `oapi` may a collection of `api` come first. -/
theorem endpointFor_advertised {m : Mapper} {log : List Exchange} {catalog : Catalog}
    (done : (pass m.mode).result? log = some (.ok catalog)) :
    let advertised := Advertised catalog.groups log
    let collected := Collected catalog.groups log
    Keeps m.mode log catalog.groups ∧
    (∀ g ∈ catalog.groups, ∀ v ∈ g.versions, ∃ doc, Served catalog.groups log g v doc) ∧
    (∀ version kind e, m.endpointFor catalog version kind = .ok e →
      collected e.key ∧
      (e.key.name = Kind.plural kind ∨ e.key.name = Text.lower (Text.trim kind)) ∧
      ∀ c, e.supports c = true ↔
        ∃ entry, advertised e.key entry ∧ entry.name = e.key.name ++ "/" ++ c) ∧
    ∀ k kind, collected k → '/' ∉ k.version.toList → Text.trim k.apiVersion = k.apiVersion →
      Kind.plural kind = k.name →
      let plural : Key := ⟨.api, none, k.version, k.name⟩
      let given : Key := ⟨.api, none, k.version, Text.lower (Text.trim kind)⟩
      ∃ e, m.endpointFor catalog k.apiVersion kind = .ok e ∧
        catalog.registry.get? e.key = some e ∧
        (k.root ≠ .oapi → e.key = k) ∧
        (k.root = .oapi →
          (collected plural → e.key = plural) ∧
          (¬collected plural → collected given → e.key = given) ∧
          (¬collected plural → ¬collected given → e.key = k)) := by
  intro advertised collected
  have keeps : Keeps m.mode log catalog.groups := (result?_pass_ok.1 done).1
  refine ⟨keeps, fun g mem v version => served_of_mem_groups done mem version, ?_, ?_⟩
  · intro version kind e found
    rcases endpointFor_sound found with ⟨mem, name⟩
    have registered : catalog.registry.get? e.key = some e :=
      Registry.get?_eq_some_iff.2 ⟨mem, rfl⟩
    exact ⟨(collected_iff done).2 ⟨e, registered⟩, Lookup.mem_names.1 name, supports_iff done mem⟩
  · intro k kind there flat tidy plural_eq plural given
    -- a list with entries is not taken at an empty version, and the pass has taken it
    have some_version : k.version ≠ "" := by
      rcases there with ⟨entry, ⟨g, -, -, -, -, doc, served, mem⟩, -⟩
      exact version_ne_of_served done served mem
    rcases root_of_collected keeps there with ⟨root, group, named⟩ | ⟨legacy, unnamed⟩
    · rcases (collected_iff done).1 there with ⟨e, registered⟩
      have key : e.key = k := (Registry.get?_eq_some_iff.1 registered).2
      have found : m.endpointFor catalog k.apiVersion kind = .ok e :=
        endpointFor_named named root flat some_version tidy plural_eq registered
      refine ⟨e, found, by rw [key, registered], fun _ => key, ?_⟩
      intro oapi
      rw [root] at oapi
      cases oapi
    · have found_first :=
        endpointFor_collected_legacy done there legacy unnamed flat some_version tidy plural_eq
      rcases found_first with ⟨e, found, registered, below_api, below_oapi⟩
      refine ⟨e, found, registered, ?_, below_oapi⟩
      intro other
      rcases legacy with api | oapi
      · exact below_api api
      · exact absurd oapi other

/-- With jobs excluded, deployments and the logs of pods are found in the lists of a cluster that
has all three, and nothing that is found belongs to the group of jobs. -/
theorem endpointFor_jobless :
    let m : Mapper := ⟨.block ["batch"], Preferred.default⟩
    ∃ catalog, (pass m.mode).result? joblessLog = some (.ok catalog) ∧
      (∃ e, m.endpointFor catalog "apps/v1" "Deployment" = .ok e ∧ e.key = deploymentsKey) ∧
      (∃ e, m.endpointFor catalog "v1" "Pod" = .ok e ∧ e.key = podsKey ∧ e.supports "log" = true) ∧
      ∀ version kind e, m.endpointFor catalog version kind = .ok e →
        e.key.group ≠ some "batch" := by
  intro m
  rcases @result?_joblessLog m.mode (by decide) (by decide) with ⟨registry, done⟩
  have ⟨keeps, _, sound, complete⟩ := @endpointFor_advertised m joblessLog _ done
  refine ⟨_, done, ?_, ?_, ?_⟩
  · have collected : Collected joblessGroups joblessLog deploymentsKey :=
      ⟨_, advertised_deployments, by decide⟩
    rcases complete deploymentsKey "Deployment" collected (by decide) (by decide) (by decide) with
      ⟨e, found, -, own, -⟩
    exact ⟨e, found, own (by decide)⟩
  · have collected : Collected joblessGroups joblessLog podsKey :=
      ⟨_, advertised_podLogs, by decide⟩
    rcases complete podsKey "Pod" collected (by decide) (by decide) (by decide) with
      ⟨e, found, -, own, -⟩
    have key : e.key = podsKey := own (by decide)
    have supports := (sound "v1" "Pod" e found).2.2 "log"
    rw [key] at supports
    exact ⟨e, found, key, supports.2 ⟨_, advertised_podLogs, by decide⟩⟩
  · intro version kind e found batch
    rcases keeps with ⟨_, _, _, _, api, oapi, list, -, -, -, -, groups⟩
    rcases (sound version kind e found).1 with ⟨entry, ⟨g, mem, -, name, -⟩, -⟩
    rw [groups] at mem
    have wanted := wants_of_mem_kept mem (name.trans batch)
    revert wanted
    decide

end Mapper
end ApiCatalog
