import ApiCatalog.Proofs.Mapper.Advertised
import ApiCatalog.Proofs.Mapper.Answering

/-!
# Two families of apis

Apis without a group, below `api` and `oapi`, and named ones, below `apis`, share one registry. They
still do not get in each other's way: what two passes have received of one family decides what both
answer about it, whatever else the other family holds and whatever is wanted of it.

- `Discovery.SameNamed`, `Discovery.SameLegacy` : two passes have received the same of a family
- `Discovery.get?_of_sameNamed`, `Discovery.get?_of_sameLegacy` : then they agree on its keys
- `Mapper.families_apart` : lookups of one family do not depend on the other
-/

namespace ApiCatalog
namespace Discovery

open Client (documentOf listOf)

/-! ## What was received of a family -/

/-- Whether a root is one of `roots`, for a group. -/
def below (roots : List ApiRoot) (g : Group) : Bool :=
  g.root ∈ roots

/-- The reply of a root. Roots are asked before everything else, in their order. -/
def rootReply (root : ApiRoot) (log : List Exchange) : Option Reply :=
  log[root.rank]?.map Prod.snd

/-- The lists of the groups below `roots`, in the order of the requests. -/
def listsBelow (roots : List ApiRoot) (groups : List Group) (log : List Exchange) :
    List (Except Error Wire.ResourceList) :=
  (part (below roots) (listings groups) (listed log)).map (listOf ·.2.2)

/-- Two passes have received the same list of named groups, and the same resource lists of those
that they keep. -/
structure SameNamed (log log' : List Exchange) (groups groups' : List Group) : Prop where
  named : (rootReply .apis log).map (documentOf Wire.GroupList) =
    (rootReply .apis log').map (documentOf Wire.GroupList)
  lists : listsBelow [.apis] groups log = listsBelow [.apis] groups' log'

/-- Two passes have received the same versions of both legacy roots, and the same resource lists
below them. -/
structure SameLegacy (log log' : List Exchange) (groups groups' : List Group) : Prop where
  versions : ∀ root ∈ ApiRoot.legacy, (rootReply root log).map (documentOf Wire.Versions) =
    (rootReply root log').map (documentOf Wire.Versions)
  lists : listsBelow ApiRoot.legacy groups log = listsBelow ApiRoot.legacy groups' log'

/-! ## The groups of a family -/

variable {mode : Mode} {api oapi : Wire.Versions} {list : Wire.GroupList}

theorem filter_kept_named :
    (kept mode api oapi list).filter (below [.apis]) = wanted mode list.groups := by
  have all : ∀ g ∈ wanted mode list.groups, below [.apis] g = true := by
    intro g mem
    rcases List.mem_map.1 mem with ⟨info, -, rfl⟩
    rfl
  exact List.filter_eq_self.2 all

theorem filter_kept_legacy :
    (kept mode api oapi list).filter (below ApiRoot.legacy) =
      [.legacy .api api.versions, .legacy .oapi oapi.versions] := by
  have none : (wanted mode list.groups).filter (below ApiRoot.legacy) = [] := by
    refine List.filter_eq_nil_iff.2 fun g mem => ?_
    rcases List.mem_map.1 mem with ⟨info, -, rfl⟩
    simp [below, Group.ofInfo, Group.root, ApiRoot.legacy]
  rw [kept, List.filter_cons_of_pos (by rfl), List.filter_cons_of_pos (by rfl), none]

/-! ## Two passes -/

section TwoPasses

variable {mode mode' : Mode} {log log' : List Exchange} {catalog catalog' : Catalog}
  (done : (pass mode).result? log = some (.ok catalog))
  (done' : (pass mode').result? log' = some (.ok catalog'))

include done done'

/-- The same groups below some roots and the same lists of them make the same endpoints there. -/
theorem get?_of_lists {roots : List ApiRoot}
    (groups : catalog.groups.filter (below roots) = catalog'.groups.filter (below roots))
    (lists : listsBelow roots catalog.groups log = listsBelow roots catalog'.groups log')
    {k : Key} (inside : k.root ∈ roots) : catalog.registry.get? k = catalog'.registry.get? k := by
  have long := (exchanges_collect (result?_pass_ok.1 done).2).length_eq
  have long' := (exchanges_collect (result?_pass_ok.1 done').2).length_eq
  have same : (told (listings catalog.groups) (listed log)).filter (·.key.root ∈ roots) =
      (told (listings catalog'.groups) (listed log')).filter (·.key.root ∈ roots) := by
    -- below these roots both registries were told by the same groups, from the same lists
    have shows (a : Advert) : decide (a.key.root ∈ roots) = below roots a.group := rfl
    rw [told_filter (P := fun k => k.root ∈ roots) shows,
      told_filter (P := fun k => k.root ∈ roots) shows, map_fst_part long, map_fst_part long',
      groups]
    apply told_congr
    rw [List.map_map, List.map_map]
    exact lists
  exact Registry.get?_congr (P := fun k => k.root ∈ roots) (reflects_pass done)
    (reflects_pass done') same (by simpa using inside)

theorem get?_of_sameNamed (modes : mode = mode')
    (same : SameNamed log log' catalog.groups catalog'.groups) {k : Key} (root : k.root = .apis) :
    catalog.registry.get? k = catalog'.registry.get? k := by
  refine get?_of_lists done done' ?_ same.lists (by simp [root])
  have named := same.named
  rcases (result?_pass_ok.1 done).1 with
    ⟨a, o, g, later, api, oapi, list, rfl, -, -, read, groups⟩
  rcases (result?_pass_ok.1 done').1 with
    ⟨a', o', g', later', api', oapi', list', rfl, -, -, read', groups'⟩
  have lists : list = list' := by
    simpa [rootReply, ApiRoot.rank, read, read'] using named
  rw [groups, groups', filter_kept_named, filter_kept_named, modes, lists]

theorem get?_of_sameLegacy (same : SameLegacy log log' catalog.groups catalog'.groups) {k : Key}
    (root : k.root ∈ ApiRoot.legacy) : catalog.registry.get? k = catalog'.registry.get? k := by
  refine get?_of_lists done done' ?_ same.lists root
  have versions_api := same.versions .api (by decide)
  have versions_oapi := same.versions .oapi (by decide)
  rcases (result?_pass_ok.1 done).1 with
    ⟨a, o, g, later, api, oapi, list, rfl, read_api, read_oapi, -, groups⟩
  rcases (result?_pass_ok.1 done').1 with
    ⟨a', o', g', later', api', oapi', list', rfl, read_api', read_oapi', -, groups'⟩
  have apis : api = api' := by
    simpa [rootReply, ApiRoot.rank, read_api, read_api'] using versions_api
  have oapis : oapi = oapi' := by
    simpa [rootReply, ApiRoot.rank, read_oapi, read_oapi'] using versions_oapi
  rw [groups, groups', filter_kept_legacy, filter_kept_legacy, apis, oapis]

end TwoPasses

/-! ## A cluster with named groups -/

/-- Without anything below `api` the same is received of the named groups. -/
theorem sameNamed_work :
    SameNamed workLog (workRoots [] ++ workLists) (kept everything ⟨["v1"]⟩ ⟨[]⟩ ⟨workGroups⟩)
      (kept everything ⟨[]⟩ ⟨[]⟩ ⟨workGroups⟩) where
  named := by
    have replied (versions : List String) (later : List Exchange) :
        rootReply .apis (workRoots versions ++ later) =
          some (Client.served (⟨workGroups⟩ : Wire.GroupList)) := rfl
    rw [workLog, replied, replied]
  lists :=
    calc
      listsBelow [.apis] (kept everything ⟨["v1"]⟩ ⟨[]⟩ ⟨workGroups⟩) workLog =
          [listOf (Client.served deploymentList), listOf (Client.served jobList)] := rfl
      _ = listsBelow [.apis] (kept everything ⟨[]⟩ ⟨[]⟩ ⟨workGroups⟩)
          (workRoots [] ++ workLists) := rfl

/-- Without named groups the same is received below `api` and `oapi`. -/
theorem sameLegacy_work :
    SameLegacy workLog podLog (kept everything ⟨["v1"]⟩ ⟨[]⟩ ⟨workGroups⟩) podGroups where
  versions := by
    intro root mem
    have replied : rootReply root workLog = rootReply root podLog := by
      cases root with
      -- each log is evaluated to the reply: side by side they would be compared by their texts
      | api =>
          calc
            rootReply .api workLog = some (Client.served (⟨["v1"]⟩ : Wire.Versions)) := rfl
            _ = rootReply .api podLog := rfl
      | oapi =>
          calc
            rootReply .oapi workLog = some (Client.served (⟨[]⟩ : Wire.Versions)) := rfl
            _ = rootReply .oapi podLog := rfl
      | apis => simp [ApiRoot.legacy] at mem
    rw [replied]
  lists :=
    calc
      listsBelow ApiRoot.legacy (kept everything ⟨["v1"]⟩ ⟨[]⟩ ⟨workGroups⟩) workLog =
          [listOf (Client.served podList)] := rfl
      _ = listsBelow ApiRoot.legacy podGroups podLog := rfl

theorem collected_deployments_work :
    Collected (kept everything ⟨["v1"]⟩ ⟨[]⟩ ⟨workGroups⟩) workLog deploymentsKey :=
  ⟨⟨"deployments", "Deployment", true⟩,
    @advertised_of_listing _ _ (.named "apps" ["v1"] none) "v1" "deployments" deploymentList _
      (List.mem_cons_of_mem _ List.mem_cons_self) rfl List.mem_cons_self, by decide⟩

theorem collected_pods_work :
    Collected (kept everything ⟨["v1"]⟩ ⟨[]⟩ ⟨workGroups⟩) workLog podsKey :=
  ⟨⟨"pods/log", "Pod", false⟩,
    @advertised_of_listing _ _ (.legacy .api ["v1"]) "v1" "pods" podList _ List.mem_cons_self rfl
      List.mem_cons_self, by decide⟩

end Discovery

/-! ## Lookups -/

namespace Registry

open Lookup (Tries)

variable {r r' : Registry} {preferred preferred' : Preferred} {version kind : String}

/-- A qualified version is looked up below `apis`, and needs no preferred version. -/
theorem resolve_congr_qualified (slash : '/' ∈ (Lookup.bareVersion version).toList)
    (same : ∀ k : Key, k.root = .apis → r.get? k = r'.get? k) :
    r.resolve preferred version kind = r'.resolve preferred' version kind := by
  rcases Lookup.exists_tries preferred (Lookup.bareVersion version)
    [Kind.plural kind, Text.lower (Text.trim kind)] with ⟨keys, tries⟩
  cases tries with
  | @qualified group v cut last =>
      rw [resolve_of_tries (.qualified cut last), resolve_of_tries (.qualified cut last)]
      apply firstHit_congr
      intro k mem
      rcases List.mem_map.1 mem with ⟨name, -, rfl⟩
      exact same _ rfl
  | bare written flat => exact absurd slash flat
  | blank nothing => simp [nothing] at slash

/-- Any other version is looked up below the legacy roots. -/
theorem resolve_congr_legacy (flat : '/' ∉ (Lookup.bareVersion version).toList)
    (same : ∀ k : Key, k.root ∈ ApiRoot.legacy → r.get? k = r'.get? k) :
    r.resolve preferred version kind = r'.resolve preferred version kind := by
  rcases Lookup.exists_tries preferred (Lookup.bareVersion version)
    [Kind.plural kind, Text.lower (Text.trim kind)] with ⟨keys, tries⟩
  have either (names : List String) (v w : String) :
      ∀ k ∈ names.map (Key.mk .api none v) ++ names.map (Key.mk .oapi none w),
        k.root ∈ ApiRoot.legacy := by
    intro k mem
    rcases List.mem_append.1 mem with here | here
    · rcases List.mem_map.1 here with ⟨name, -, rfl⟩
      exact List.mem_cons_self
    · rcases List.mem_map.1 here with ⟨name, -, rfl⟩
      exact List.mem_cons_of_mem _ List.mem_cons_self
  have legacy : ∀ k ∈ keys, k.root ∈ ApiRoot.legacy := by
    cases tries with
    | qualified cut last => simp [cut] at flat
    | bare written _ => exact either _ _ _
    | blank nothing => exact either _ _ _
  rw [resolve_of_tries tries, resolve_of_tries tries]
  exact firstHit_congr fun k mem => same k (legacy k mem)

end Registry

namespace Mapper

open Discovery

theorem answer_congr {m m' : Mapper} {c c' : Catalog} {version kind : String}
    (same : c.registry.resolve m.preferred version kind =
      c'.registry.resolve m'.preferred version kind) :
    m.answer c (.endpointFor version kind) = m'.answer c' (.endpointFor version kind) ∧
      m.answer c (.isSupported version kind) = m'.answer c' (.isSupported version kind) := by
  simp [answer_eq, answerBy, same]

theorem answer_of_endpointFor {m : Mapper} {c : Catalog} {version kind : String} {e : Endpoint}
    (found : m.endpointFor c version kind = .ok e) :
    m.answer c (.endpointFor version kind) = .ok (.endpoint e) := by
  rw [answer_eq, answerBy, endpointFor_eq_ok.1 found]

/-- The two families of apis do not interfere. When two passes under one mode have received the same
named groups and the same lists of them, they answer every question at a qualified version alike,
whatever was served below the legacy roots and whatever versions are preferred there. When they have
received the same below the legacy roots and the same versions are preferred, they answer every
other question alike, whatever named groups there were and whichever of them were wanted. -/
theorem families_apart {m m' : Mapper} {log log' : List Exchange} {c c' : Catalog}
    (done : (pass m.mode).result? log = some (.ok c))
    (done' : (pass m'.mode).result? log' = some (.ok c')) :
    let alike (version kind : String) : Prop :=
      m.answer c (.endpointFor version kind) = m'.answer c' (.endpointFor version kind) ∧
        m.answer c (.isSupported version kind) = m'.answer c' (.isSupported version kind)
    (m.mode = m'.mode → SameNamed log log' c.groups c'.groups →
      ∀ version kind, '/' ∈ (Text.dropTrailing '/' (Text.trim version)).toList →
        alike version kind) ∧
    (m.preferred = m'.preferred → SameLegacy log log' c.groups c'.groups →
      ∀ version kind, '/' ∉ (Text.dropTrailing '/' (Text.trim version)).toList →
        alike version kind) := by
  intro alike
  constructor
  · intro modes same version kind slash
    apply answer_congr
    exact Registry.resolve_congr_qualified slash fun k root =>
      get?_of_sameNamed done done' modes same root
  · intro preferred same version kind flat
    apply answer_congr
    rw [← preferred]
    exact Registry.resolve_congr_legacy flat fun k root => get?_of_sameLegacy done done' same root

/-- Without anything below `api`, and with other preferred versions, deployments are found as
before; without deployments and jobs, pods are. -/
theorem families_apart_work :
    ∃ full bare pods : Catalog,
      (pass everything).result? workLog = some (.ok full) ∧
      (pass everything).result? (workRoots [] ++ workLists) = some (.ok bare) ∧
      (pass everything).result? podLog = some (.ok pods) ∧
      default.answer full (.endpointFor "apps/v1" "Deployment") =
        (⟨everything, ⟨"v2", "v3"⟩⟩ : Mapper).answer bare (.endpointFor "apps/v1" "Deployment") ∧
      default.answer full (.endpointFor "v1" "Pod") =
        default.answer pods (.endpointFor "v1" "Pod") ∧
      (∃ e, e.key = deploymentsKey ∧
        default.answer full (.endpointFor "apps/v1" "Deployment") = .ok (.endpoint e)) ∧
      ∃ e, e.key = podsKey ∧
        default.answer full (.endpointFor "v1" "Pod") = .ok (.endpoint e) := by
  rcases result?_workLog with ⟨_, full⟩
  rcases exists_pass (keeps_work everything [] _) brings_work with ⟨_, bare⟩
  rcases result?_podLog with ⟨_, pods⟩
  have named_apart := (@families_apart default ⟨everything, ⟨"v2", "v3"⟩⟩ _ _ _ _ full bare).1 rfl
    sameNamed_work "apps/v1" "Deployment" (by decide)
  have legacy_apart := (@families_apart default default _ _ _ _ full pods).2 rfl
    sameLegacy_work "v1" "Pod" (by decide)
  refine ⟨_, _, _, full, bare, pods, named_apart.1, legacy_apart.1, ?_, ?_⟩
  · rcases (collected_iff full).1 collected_deployments_work with ⟨e, there⟩
    have found : default.endpointFor _ deploymentsKey.apiVersion "Deployment" = .ok e :=
      endpointFor_named rfl rfl (by decide) (by decide) (by decide) (by decide) there
    exact ⟨e, (Registry.get?_eq_some_iff.1 there).2, answer_of_endpointFor found⟩
  · rcases @endpointFor_collected_legacy default _ _ full podsKey "Pod" collected_pods_work
      (.inl rfl) rfl (by decide) (by decide) (by decide) (by decide) with ⟨e, found, -, own, -⟩
    exact ⟨e, own rfl, answer_of_endpointFor found⟩

end Mapper
end ApiCatalog
