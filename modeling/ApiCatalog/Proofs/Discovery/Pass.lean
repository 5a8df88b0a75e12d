import ApiCatalog.Discovery
import ApiCatalog.Proofs.Client.Serving
import ApiCatalog.Proofs.Registry.Reference

/-!
# The exchanges of a discovery pass

A pass that completes has asked the three roots, then every listing, and it has read every reply as
the document that it asked for. The registry that it makes reflects the lists that it received.

- `Discovery.kept`            : the groups that a pass keeps, from the three documents
- `Discovery.Keeps`           : the roots answered, and these are the groups
- `Discovery.result?_pass_ok` : the exchanges of a pass that completes
- `Discovery.Served`          : the resource list that was received for a listing
- `Discovery.reflects_pass`, `Discovery.mem_told_pass` : the registry reflects the lists that were
  served
-/

namespace ApiCatalog
namespace Discovery

open Client (asks_legacyVersions asks_groupList asks_resourceList documentOf documentOf_served
  listOf listOf_served)
open Http (Request)
open Wire (faithful_groupList faithful_versions)

/-! ## The roots -/

/-- The request for the document of a root. -/
def rootRequest (root : ApiRoot) : Request :=
  ⟨"GET", .origin ⟨"/" ++ root.name, none⟩, []⟩

theorem get?_root (root : ApiRoot) :
    Request.get? (Client.discoveryUri root.name) = .ok (rootRequest root) := by
  cases root <;> rfl

theorem ending?_legacyGroup {root : ApiRoot} (legacy : root.isLegacy = true) (doc : Wire.Versions) :
    (Dialogue.ofExcept ((Group.ofVersions root doc).mapError Error.naming)).ending? =
      some (.ok (.legacy root doc.versions)) := by
  rw [Group.ofVersions, if_pos legacy]
  rfl

/-- The groups of a list that the mode wants. -/
def wanted (mode : Mode) (infos : List Wire.GroupInfo) : List Group :=
  (infos.filter (mode.wants ·.name)).map .ofInfo

theorem wanted_cons (mode : Mode) (info : Wire.GroupInfo) (rest : List Wire.GroupInfo) :
    wanted mode (info :: rest) =
      if mode.wants info.name then .ofInfo info :: wanted mode rest else wanted mode rest := by
  unfold wanted
  rw [List.filter_cons]
  split <;> rfl

theorem ending?_selectGroups (mode : Mode) (infos : List Wire.GroupInfo) :
    (selectGroups mode infos).ending? = some (.ok (wanted mode infos)) := by
  induction infos with
  | nil => rfl
  | cons info rest ih =>
      rw [selectGroups, wanted_cons]
      by_cases wants : mode.wants info.name
      · rw [if_pos wants, if_pos wants, Dialogue.bind_eq, Dialogue.ending?_bind, ih]
        rfl
      · rw [if_neg wants, if_neg wants]
        exact ih

/-- The groups that a pass keeps: those of the legacy roots, then the wanted ones. -/
def kept (mode : Mode) (api oapi : Wire.Versions) (list : Wire.GroupList) : List Group :=
  .legacy .api api.versions :: .legacy .oapi oapi.versions :: wanted mode list.groups

/-- The mode wants every named group that is kept. -/
theorem wants_of_mem_kept {mode : Mode} {api oapi : Wire.Versions} {list : Wire.GroupList}
    {g : Group} (h : g ∈ kept mode api oapi list) {name : String} (named : g.name = some name) :
    mode.wants name = true := by
  simp only [kept, wanted, List.mem_cons, List.mem_map, List.mem_filter] at h
  rcases h with rfl | rfl | ⟨info, ⟨-, wants⟩, rfl⟩
  · cases named
  · cases named
  · cases named
    exact wants

/-! ## The listings -/

/-- The dialogue for one listing asks for its path and goes by the reply. -/
theorem result?_resourceList_ok {path : String} {log : List Exchange} {doc : Wire.ResourceList} :
    (Client.resourceList path).result? log = some (.ok doc) ↔
      ∃ request reply, Request.get? (Client.discoveryUri path) = .ok request ∧
        log = [(request, reply)] ∧ listOf reply = .ok doc := by
  cases made : Request.get? (Client.discoveryUri path) with
  | error fault =>
      rw [Dialogue.result?_of_ending? (Client.ending?_resourceList made)]
      simp
  | ok request =>
      rw [asks_resourceList made]
      constructor
      · rintro ⟨reply, rfl, read⟩
        exact ⟨request, reply, rfl, rfl, read.symm⟩
      · rintro ⟨request', reply, same, rfl, read⟩
        cases same
        exact ⟨reply, rfl, read.symm⟩

theorem result?_collect_ok {r : Registry} {group : Group} {version : String}
    {rest : List (Group × String)} {log : List Exchange} {built : Registry} :
    (collect r ((group, version) :: rest)).result? log = some (.ok built) ↔
      ∃ request reply later doc grown,
        Request.get? (Client.discoveryUri (group.pathFor version)) = .ok request ∧
        log = (request, reply) :: later ∧ listOf reply = .ok doc ∧
        r.addList group version doc = (grown, none) ∧
        (collect grown rest).result? later = some (.ok built) := by
  rw [collect, Dialogue.bind_eq, Dialogue.result?_bind_ok]
  constructor
  · rintro ⟨a, later, doc, rfl, first, second⟩
    obtain ⟨request, reply, made, rfl, read⟩ := result?_resourceList_ok.1 first
    -- an advert that is refused would have ended the pass
    split at second
    · next grown added =>
        exact ⟨request, reply, later, doc, grown, made, rfl, read, added, second⟩
    · next fault added =>
        have ended := ((Dialogue.result?_of_ending? rfl).1 second).2
        cases ended
  · rintro ⟨request, reply, later, doc, grown, made, rfl, read, added, second⟩
    refine ⟨[(request, reply)], later, doc, rfl, ?_, ?_⟩
    · exact result?_resourceList_ok.2 ⟨request, reply, made, rfl, read⟩
    · rw [added]
      exact second

/-! ## The whole pass -/

theorem result?_legacyGroups_ok {root : ApiRoot} (legacy : root.isLegacy = true)
    {rest : List ApiRoot} {log : List Exchange} {groups : List Group} :
    (legacyGroups (root :: rest)).result? log = some (.ok groups) ↔
      ∃ reply later doc more, log = (rootRequest root, reply) :: later ∧
        documentOf Wire.Versions reply = .ok doc ∧
        groups = .legacy root doc.versions :: more ∧
        (legacyGroups rest).result? later = some (.ok more) := by
  rw [legacyGroups]
  rw [Dialogue.bind_eq, Dialogue.result?_bind_ok]
  constructor
  · rintro ⟨a, later, doc, rfl, first, second⟩
    -- one reply for the root, none for the group made of it, and the rest for the other roots
    obtain ⟨reply, rfl, read⟩ := (asks_legacyVersions legacy (get?_root root) _ _).1 first
    rw [Dialogue.bind_eq, Dialogue.result?_bind_ok] at second
    obtain ⟨b, c, group, rfl, made, second⟩ := second
    obtain ⟨rfl, same⟩ := (Dialogue.result?_of_ending? (ending?_legacyGroup legacy doc)).1 made
    cases same
    rw [Dialogue.bind_eq, Dialogue.result?_bind_ok] at second
    obtain ⟨c, d, more, rfl, others, last⟩ := second
    obtain ⟨rfl, same⟩ := (Dialogue.result?_of_ending? rfl).1 last
    cases same
    exact ⟨reply, c, doc, more, by simp, read.symm, rfl, others⟩
  · rintro ⟨reply, later, doc, more, rfl, read, rfl, others⟩
    refine ⟨[(rootRequest root, reply)], later, doc, rfl, ?_, ?_⟩
    · exact (asks_legacyVersions legacy (get?_root root) _ _).2 ⟨reply, rfl, read.symm⟩
    · refine Dialogue.result?_bind_ok.2 ⟨[], later, .legacy root doc.versions, rfl, ?_, ?_⟩
      · exact (Dialogue.result?_of_ending? (ending?_legacyGroup legacy doc)).2 ⟨rfl, rfl⟩
      · refine Dialogue.result?_bind_ok.2 ⟨later, [], more, by simp, others, ?_⟩
        exact (Dialogue.result?_of_ending? rfl).2 ⟨rfl, rfl⟩

theorem result?_legacyGroups_nil {log : List Exchange} {groups : List Group} :
    (legacyGroups []).result? log = some (.ok groups) ↔ log = [] ∧ groups = [] := by
  rw [legacyGroups, Dialogue.result?_of_ending? rfl, Except.ok.injEq]

/-- What a pass does after the legacy roots have told their versions. -/
def afterLegacy (mode : Mode) (legacy : List Group) : Dialogue Catalog := do
  let list ← Client.groupList
  let named ← selectGroups mode list.groups
  let groups := legacy ++ named
  let registry ← collect .empty (listings groups)
  Dialogue.tell (.discoveryCompleted groups.length registry.size)
  return ⟨groups, registry⟩

theorem pass_eq (mode : Mode) :
    pass mode = .report .discoveryStarted ((legacyGroups ApiRoot.legacy).bind (afterLegacy mode)) :=
  rfl

/-- Every pass starts at `api`. -/
theorem pending?_pass (mode : Mode) : (pass mode).pending? = some (rootRequest .api) := by
  rfl

theorem result?_afterLegacy_ok {mode : Mode} {legacy : List Group} {log : List Exchange}
    {catalog : Catalog} :
    (afterLegacy mode legacy).result? log = some (.ok catalog) ↔
      ∃ reply later list, log = (rootRequest .apis, reply) :: later ∧
        documentOf Wire.GroupList reply = .ok list ∧
        catalog.groups = legacy ++ wanted mode list.groups ∧
        (collect .empty (listings catalog.groups)).result? later =
          some (.ok catalog.registry) := by
  rw [afterLegacy, Dialogue.bind_eq, Dialogue.result?_bind_ok]
  constructor
  · rintro ⟨a, later, list, rfl, first, second⟩
    -- one reply for the list of groups, none for the choice among them, and the rest for the lists
    obtain ⟨reply, rfl, read⟩ := (asks_groupList (get?_root .apis) _ _).1 first
    rw [Dialogue.bind_eq, Dialogue.result?_bind_ok] at second
    obtain ⟨b, c, named, rfl, chosen, second⟩ := second
    obtain ⟨rfl, same⟩ := (Dialogue.result?_of_ending? (ending?_selectGroups mode _)).1 chosen
    cases same
    rw [Dialogue.bind_eq, Dialogue.result?_bind_ok] at second
    obtain ⟨c, d, registry, rfl, built, last⟩ := second
    obtain ⟨rfl, same⟩ := (Dialogue.result?_of_ending? rfl).1 last
    cases same
    exact ⟨reply, c, list, by simp, read.symm, rfl, built⟩
  · rintro ⟨reply, later, list, rfl, read, groups, built⟩
    obtain ⟨_, registry⟩ := catalog
    cases groups
    refine ⟨[(rootRequest .apis, reply)], later, list, rfl, ?_, ?_⟩
    · exact (asks_groupList (get?_root .apis) _ _).2 ⟨reply, rfl, read.symm⟩
    · refine Dialogue.result?_bind_ok.2 ⟨[], later, wanted mode list.groups, rfl, ?_, ?_⟩
      · exact (Dialogue.result?_of_ending? (ending?_selectGroups mode _)).2 ⟨rfl, rfl⟩
      · refine Dialogue.result?_bind_ok.2 ⟨later, [], registry, by simp, built, ?_⟩
        exact (Dialogue.result?_of_ending? rfl).2 ⟨rfl, rfl⟩

/-- The groups that a pass keeps after the three roots have answered. -/
def Keeps (mode : Mode) (log : List Exchange) (groups : List Group) : Prop :=
  ∃ a o g later api oapi list,
    log = (rootRequest .api, a) :: (rootRequest .oapi, o) :: (rootRequest .apis, g) :: later ∧
    documentOf Wire.Versions a = .ok api ∧ documentOf Wire.Versions o = .ok oapi ∧
    documentOf Wire.GroupList g = .ok list ∧ groups = kept mode api oapi list

/-- The exchanges of a pass after those with the roots. -/
def listed (log : List Exchange) : List Exchange :=
  log.drop ApiRoot.all.length

/-- A pass completes with the groups that the roots told and the registry that the listings gave,
when it asked just these and every reply brought its document. -/
theorem result?_pass_ok {mode : Mode} {log : List Exchange} {catalog : Catalog} :
    (pass mode).result? log = some (.ok catalog) ↔
      Keeps mode log catalog.groups ∧
        (collect .empty (listings catalog.groups)).result? (listed log) =
          some (.ok catalog.registry) := by
  rw [pass_eq, Dialogue.result?_report, Dialogue.result?_bind_ok]
  -- the legacy roots are two and known by name, so their exchanges are spelled out
  simp only [result?_afterLegacy_ok, ApiRoot.legacy, @result?_legacyGroups_ok .api rfl,
    @result?_legacyGroups_ok .oapi rfl, result?_legacyGroups_nil]
  constructor
  · rintro ⟨_, _, _, rfl, ⟨a, _, api, _, rfl, readApi, rfl, o, _, oapi, _, rfl, readOapi, rfl,
      rfl, rfl⟩, g, later, list, rfl, readList, groups, built⟩
    exact ⟨⟨a, o, g, later, api, oapi, list, rfl, readApi, readOapi, readList, groups⟩, built⟩
  · rintro ⟨⟨a, o, g, later, api, oapi, list, rfl, readApi, readOapi, readList, groups⟩, built⟩
    exact ⟨[(rootRequest .api, a), (rootRequest .oapi, o)], _, _, rfl,
      ⟨a, _, api, _, rfl, readApi, rfl, o, _, oapi, _, rfl, readOapi, rfl, rfl, rfl⟩,
      g, later, list, rfl, readList, groups, built⟩

/-! ## What was served -/

/-- The adverts that the exchanges for listings bring. -/
def told (asked : List (Group × String)) (log : List Exchange) : List Advert :=
  (asked.zip log).flatMap fun (listing, exchange) =>
    match listOf exchange.2 with
    | .ok doc => doc.resources.map (.mk listing.1 listing.2)
    | .error _ => []

theorem mem_told {asked : List (Group × String)} {log : List Exchange} {a : Advert} :
    a ∈ told asked log ↔ ∃ request reply doc,
      ((a.group, a.version), (request, reply)) ∈ asked.zip log ∧
        listOf reply = .ok doc ∧ a.entry ∈ doc.resources := by
  unfold told
  rw [List.mem_flatMap]
  constructor
  · rintro ⟨⟨⟨g, v⟩, request, reply⟩, pair, mem⟩
    cases read : listOf reply with
    | error e => simp [read] at mem
    | ok doc =>
        simp only [read, List.mem_map] at mem
        obtain ⟨entry, there, rfl⟩ := mem
        exact ⟨request, reply, doc, pair, read, there⟩
  · rintro ⟨request, reply, doc, pair, read, there⟩
    refine ⟨_, pair, ?_⟩
    simp only [read, List.mem_map]
    exact ⟨a.entry, there, rfl⟩

/-- A registry that is collected reflects what the exchanges told. -/
theorem reflects_collect {r built : Registry} {adverts : List Advert}
    (h : Advert.Reflects r.toList adverts) {asked : List (Group × String)} {log : List Exchange}
    (ends : (collect r asked).result? log = some (.ok built)) :
    Advert.Reflects built.toList (adverts ++ told asked log) := by
  -- listing by listing: the registry grown so far reflects what has been told so far
  induction asked generalizing r adverts log with
  | nil =>
      obtain ⟨rfl, same⟩ := (Dialogue.result?_of_ending? rfl).1 ends
      cases same
      simpa [told] using h
  | cons listing rest ih =>
      obtain ⟨g, v⟩ := listing
      obtain ⟨request, reply, later, doc, grown, -, rfl, read, added, ends⟩ :=
        result?_collect_ok.1 ends
      have step : Advert.Reflects grown.toList (adverts ++ doc.resources.map (.mk g v)) := by
        -- the list was added without a fault, so all of it was taken
        have performed := Registry.reflects_perform h (.list g v doc)
        rcases Registry.perform_spec r (.list g v doc) with ⟨all, -, -⟩ | ⟨-, refused⟩
        · rw [all, Registry.Call.perform, added] at performed
          exact performed
        · rw [Registry.Call.perform, added] at refused
          cases refused
      have one : told ((g, v) :: rest) ((request, reply) :: later) =
          doc.resources.map (.mk g v) ++ told rest later := by
        simp [told, read]
      rw [one, ← List.append_assoc]
      exact ih step ends

/-- The exchange for a listing: the request is for its path, and the reply is a list. A list with
entries is not taken at an empty version. -/
def Brings (listing : Group × String) (x : Exchange) : Prop :=
  Request.get? (Client.discoveryUri (listing.1.pathFor listing.2)) = .ok x.1 ∧
    ∃ doc, listOf x.2 = .ok doc ∧ (doc.resources ≠ [] → listing.2 ≠ "")

/-- Every listing is asked for in turn. -/
theorem exchanges_collect {r built : Registry} {asked : List (Group × String)}
    {log : List Exchange} (ends : (collect r asked).result? log = some (.ok built)) :
    List.Forall₂ Brings asked log := by
  induction asked generalizing r log with
  | nil =>
      obtain ⟨rfl, -⟩ := (Dialogue.result?_of_ending? rfl).1 ends
      exact .nil
  | cons listing rest ih =>
      obtain ⟨g, v⟩ := listing
      obtain ⟨request, reply, later, doc, grown, made, rfl, read, added, ends⟩ :=
        result?_collect_ok.1 ends
      refine .cons ⟨made, doc, read, fun entries empty => ?_⟩ (ih ends)
      rw [Registry.addList, (r.addEntries_spec g v doc.resources).1 empty entries] at added
      cases added

/-- Such exchanges complete a registry. -/
theorem exists_collect (r : Registry) {asked : List (Group × String)} {log : List Exchange}
    (brought : List.Forall₂ Brings asked log) :
    ∃ built, (collect r asked).result? log = some (.ok built) := by
  induction brought generalizing r with
  | nil => exact ⟨r, (Dialogue.result?_of_ending? rfl).2 ⟨rfl, rfl⟩⟩
  | @cons listing x rest later brings _ ih =>
      rcases listing with ⟨g, v⟩
      rcases brings with ⟨made, doc, read, versioned⟩
      have added : (r.addList g v doc).2 = none := by
        by_cases entries : doc.resources = []
        · simp [Registry.addList, entries, Registry.addEntries]
        · exact ((r.addEntries_spec g v doc.resources).2 (versioned entries)).1
      rcases ih (r.addList g v doc).1 with ⟨built, ends⟩
      exact ⟨built, result?_collect_ok.2
        ⟨x.1, x.2, later, doc, _, made, rfl, read, Prod.ext rfl added, ends⟩⟩

/-- A pass completes when the roots have told the groups and the exchanges behind them bring the
lists of these. -/
theorem exists_pass {mode : Mode} {log : List Exchange} {groups : List Group}
    (keeps : Keeps mode log groups)
    (brought : List.Forall₂ Brings (listings groups) (listed log)) :
    ∃ registry, (pass mode).result? log = some (.ok ⟨groups, registry⟩) := by
  rcases exists_collect .empty brought with ⟨registry, ends⟩
  exact ⟨registry, result?_pass_ok.2 ⟨keeps, ends⟩⟩

/-- The pass asked for the list of `g` at `v`, and got `doc`. -/
def Served (groups : List Group) (log : List Exchange) (g : Group) (v : String)
    (doc : Wire.ResourceList) : Prop :=
  ∃ request reply, ((g, v), (request, reply)) ∈ (listings groups).zip (listed log) ∧
    Request.get? (Client.discoveryUri (g.pathFor v)) = .ok request ∧ listOf reply = .ok doc

theorem mem_listings {groups : List Group} {g : Group} {v : String} :
    (g, v) ∈ listings groups ↔ g ∈ groups ∧ v ∈ g.versions := by
  simp only [listings, List.mem_flatMap, List.mem_map, Prod.mk.injEq]
  constructor
  · rintro ⟨g', mem, v', there, rfl, rfl⟩
    exact ⟨mem, there⟩
  · rintro ⟨mem, there⟩
    exact ⟨g, mem, v, there, rfl, rfl⟩

theorem mem_groups_of_served {groups : List Group} {log : List Exchange} {g : Group} {v : String}
    {doc : Wire.ResourceList} (h : Served groups log g v doc) : g ∈ groups ∧ v ∈ g.versions := by
  obtain ⟨request, reply, pair, -⟩ := h
  exact mem_listings.1 (List.of_mem_zip pair).1

section Completed

variable {mode : Mode} {log : List Exchange} {catalog : Catalog}
  (done : (pass mode).result? log = some (.ok catalog))

include done

/-- The registry of a pass that completes reflects what was told. -/
theorem reflects_pass :
    Advert.Reflects catalog.registry.toList (told (listings catalog.groups) (listed log)) :=
  reflects_collect (r := .empty) .nil (result?_pass_ok.1 done).2

/-- What was told is what was served, at a version of a group that is kept. -/
theorem mem_told_pass {a : Advert} :
    a ∈ told (listings catalog.groups) (listed log) ↔
      ∃ doc, Served catalog.groups log a.group a.version doc ∧ a.entry ∈ doc.resources := by
  have exchanged := exchanges_collect (result?_pass_ok.1 done).2
  rw [mem_told]
  constructor
  · rintro ⟨request, reply, doc, pair, read, there⟩
    have made := (List.forall₂_zip exchanged pair).1
    exact ⟨doc, ⟨request, reply, pair, made, read⟩, there⟩
  · rintro ⟨doc, ⟨request, reply, pair, -, read⟩, there⟩
    exact ⟨request, reply, doc, pair, read, there⟩

theorem version_ne_of_served {g : Group} {v : String} {doc : Wire.ResourceList}
    (h : Served catalog.groups log g v doc) {entry : Wire.ResourceEntry}
    (mem : entry ∈ doc.resources) : v ≠ "" := by
  obtain ⟨request, reply, pair, -, read⟩ := h
  obtain ⟨-, doc', read', versioned⟩ :=
    List.forall₂_zip (exchanges_collect (result?_pass_ok.1 done).2) pair
  rw [read] at read'
  cases read'
  exact versioned (List.ne_nil_of_mem mem)

/-- Every version of every group that is kept is served, once for each time that it is listed. -/
theorem served_of_mem_groups {g : Group} {v : String} (mem : g ∈ catalog.groups)
    (version : v ∈ g.versions) : ∃ doc, Served catalog.groups log g v doc := by
  have exchanged := exchanges_collect (result?_pass_ok.1 done).2
  obtain ⟨i, at_i⟩ := List.mem_iff_getElem?.1 (mem_listings.2 ⟨mem, version⟩)
  -- its exchange stands at the same place of the log
  have inside : i < (listed log).length := by
    rw [← exchanged.length_eq]
    exact (List.getElem?_eq_some_iff.1 at_i).1
  have pair : ((g, v), (listed log)[i]) ∈ (listings catalog.groups).zip (listed log) := by
    refine List.mem_iff_getElem?.2 ⟨i, ?_⟩
    rw [List.getElem?_zip_eq_some]
    exact ⟨at_i, List.getElem?_eq_getElem inside⟩
  obtain ⟨made, doc, read, -⟩ := List.forall₂_zip exchanged pair
  exact ⟨doc, _, _, pair, made, read⟩

end Completed

/-! ## A small cluster -/

def podGroups : List Group :=
  [.legacy .api ["v1"], .legacy .oapi []]

def podList : Wire.ResourceList :=
  ⟨"v1", [⟨"pods/log", "Pod", false⟩]⟩

def podRequest : Request :=
  ⟨"GET", .origin ⟨"/api/v1", none⟩, []⟩

/-- The exchanges with a cluster that serves the logs of pods and nothing else. -/
def podLog : List Exchange :=
  [(rootRequest .api, Client.served (⟨["v1"]⟩ : Wire.Versions)),
    (rootRequest .oapi, Client.served (⟨[]⟩ : Wire.Versions)),
    (rootRequest .apis, Client.served (⟨[]⟩ : Wire.GroupList)),
    (podRequest, Client.served podList)]

theorem get?_podRequest :
    Request.get? (Client.discoveryUri ((Group.legacy .api ["v1"]).pathFor "v1")) =
      .ok podRequest := by
  rfl

theorem keeps_podLog : Keeps everything podLog podGroups :=
  ⟨_, _, _, _, ⟨["v1"]⟩, ⟨[]⟩, ⟨[]⟩, rfl, documentOf_served faithful_versions _,
    documentOf_served faithful_versions _, documentOf_served faithful_groupList _, rfl⟩

theorem result?_podLog :
    ∃ registry, (pass everything).result? podLog = some (.ok ⟨podGroups, registry⟩) :=
  exists_pass keeps_podLog (.cons ⟨get?_podRequest, podList, listOf_served podList, by decide⟩ .nil)

end Discovery
end ApiCatalog
