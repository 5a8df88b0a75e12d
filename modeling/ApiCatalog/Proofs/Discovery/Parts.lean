import ApiCatalog.Proofs.Discovery.Pass
import ApiCatalog.Proofs.Registry.Restriction

/-!
# Parts of a pass

The listings of some of the groups, with the exchanges for them, are a part of a pass. What the
registry says about the keys of these groups depends on that part alone, and on no more of it than
the lists that the replies bring.

- `Discovery.part`         : the listings of some groups, each with its exchange
- `Discovery.told_filter`  : the adverts of the keys of these groups are those that the part tells
- `Discovery.told_congr`   : what is told depends on the lists
- `Discovery.workLog`      : the exchanges with a cluster that has named groups
- `Discovery.joblessLog`   : those of a pass to which one of these groups is not wanted
-/

namespace ApiCatalog
namespace Discovery

open Client (documentOf_served listOf listOf_served)
open Wire (faithful_groupList faithful_versions)

/-- The listings of the groups that `p` holds of, each with its exchange, in the order of the
requests. -/
def part (p : Group → Bool) (asked : List (Group × String)) (log : List Exchange) :
    List ((Group × String) × Exchange) :=
  (asked.zip log).filter (p ·.1.1)

variable {p : Group → Bool} {P : Key → Bool} {asked : List (Group × String)} {log : List Exchange}

/-! ## Listings -/

/-- The listings of some groups are some of the listings. -/
theorem filter_listings (p : Group → Bool) (groups : List Group) :
    (listings groups).filter (p ·.1) = listings (groups.filter p) := by
  induction groups with
  | nil => rfl
  | cons g rest ih =>
      rw [listings, List.flatMap_cons, List.filter_append, List.filter_cons]
      by_cases inside : p g = true
      · have all : (g.versions.map (g, ·)).filter (p ·.1) = g.versions.map (g, ·) := by
          simp [List.filter_eq_self, inside]
        rw [all, if_pos inside, listings, List.flatMap_cons]
        exact congrArg (g.versions.map (g, ·) ++ ·) ih
      · have none : (g.versions.map (g, ·)).filter (p ·.1) = [] := by
          simp [List.filter_eq_nil_iff, inside]
        rw [none, if_neg inside]
        exact ih

/-- A part of the listings is asked for as the listings of its groups. -/
theorem map_fst_part {groups : List Group} (long : (listings groups).length = log.length) :
    (part p (listings groups) log).map Prod.fst = listings (groups.filter p) := by
  have all : ((listings groups).zip log).map Prod.fst = listings groups :=
    List.map_fst_zip (by omega)
  calc
    (part p (listings groups) log).map Prod.fst =
        (((listings groups).zip log).map Prod.fst).filter (p ·.1) := by
        rw [List.filter_map]
        rfl
    _ = listings (groups.filter p) := by rw [all, filter_listings]

theorem zip_part : ((part p asked log).map Prod.fst).zip ((part p asked log).map Prod.snd) =
    part p asked log := by
  simp [List.zip_map']

/-! ## What a part tells -/

/-- Whether a key is inside shows by its group, so the adverts of these keys are told by the part of
these groups. -/
theorem told_filter (shows : ∀ a : Advert, P a.key = p a.group) :
    (told asked log).filter (P ·.key) =
      told ((part p asked log).map Prod.fst) ((part p asked log).map Prod.snd) := by
  unfold told
  rw [zip_part, part]
  induction asked.zip log with
  | nil => rfl
  | cons x rest ih =>
      rcases x with ⟨⟨g, v⟩, request, reply⟩
      rw [List.flatMap_cons, List.filter_append, ih, List.filter_cons]
      -- the adverts of one list are all inside or all outside
      by_cases inside : p g = true
      · cases read : listOf reply <;>
          simp [read, List.filter_map, Function.comp_def, shows, inside]
      · cases read : listOf reply <;>
          simp [read, List.filter_map, Function.comp_def, shows, inside]

/-- The adverts of a listing in what was received as its list. -/
def advertsIn (listing : Group × String) : Except Error Wire.ResourceList → List Advert
  | .ok doc => doc.resources.map (.mk listing.1 listing.2)
  | .error _ => []

theorem told_eq_advertsIn (asked : List (Group × String)) (log : List Exchange) :
    told asked log =
      (asked.zip (log.map (listOf ·.2))).flatMap fun l => advertsIn l.1 l.2 := by
  rw [List.zip_map_right, List.flatMap_map]
  rfl

/-- What is told depends on the lists. -/
theorem told_congr {log' : List Exchange}
    (same : log.map (listOf ·.2) = log'.map (listOf ·.2)) : told asked log = told asked log' := by
  rw [told_eq_advertsIn, same, ← told_eq_advertsIn]

/-! ## A cluster with named groups -/

def workGroups : List Wire.GroupInfo :=
  [⟨"apps", [⟨"apps/v1", "v1"⟩], none⟩, ⟨"batch", [⟨"batch/v1", "v1"⟩], none⟩]

def deploymentList : Wire.ResourceList :=
  ⟨"apps/v1", [⟨"deployments", "Deployment", true⟩]⟩

def jobList : Wire.ResourceList :=
  ⟨"batch/v1", [⟨"jobs", "Job", true⟩]⟩

/-- The exchange for the list of a group at a version. -/
def listing (g : Group) (version : String) (doc : Wire.ResourceList) : Exchange :=
  (⟨"GET", .origin ⟨"/" ++ g.pathFor version, none⟩, []⟩, Client.served doc)

/-- The exchanges with the roots of a cluster that serves `versions` below `api`. -/
def workRoots (versions : List String) : List Exchange :=
  [(rootRequest .api, Client.served (⟨versions⟩ : Wire.Versions)),
    (rootRequest .oapi, Client.served (⟨[]⟩ : Wire.Versions)),
    (rootRequest .apis, Client.served (⟨workGroups⟩ : Wire.GroupList))]

/-- The exchanges for the lists of the named groups. -/
def workLists : List Exchange :=
  [listing (.named "apps" ["v1"] none) "v1" deploymentList,
    listing (.named "batch" ["v1"] none) "v1" jobList]

/-- The exchanges with a cluster that serves pods, deployments and jobs. -/
def workLog : List Exchange :=
  workRoots ["v1"] ++ listing (.legacy .api ["v1"]) "v1" podList :: workLists

theorem keeps_work (mode : Mode) (versions : List String) (later : List Exchange) :
    Keeps mode (workRoots versions ++ later) (kept mode ⟨versions⟩ ⟨[]⟩ ⟨workGroups⟩) :=
  ⟨_, _, _, later, ⟨versions⟩, ⟨[]⟩, ⟨workGroups⟩, rfl, documentOf_served faithful_versions _,
    documentOf_served faithful_versions _, documentOf_served faithful_groupList _, rfl⟩

theorem brings_work :
    List.Forall₂ Brings (listings (wanted everything workGroups)) workLists :=
  .cons ⟨rfl, deploymentList, listOf_served deploymentList, by decide⟩
    (.cons ⟨rfl, jobList, listOf_served jobList, by decide⟩ .nil)

theorem result?_workLog :
    ∃ registry, (pass everything).result? workLog =
      some (.ok ⟨kept everything ⟨["v1"]⟩ ⟨[]⟩ ⟨workGroups⟩, registry⟩) :=
  exists_pass (keeps_work everything ["v1"] _)
    (.cons ⟨rfl, podList, listOf_served podList, by decide⟩ brings_work)

/-- The groups of this cluster without those of jobs. -/
def joblessGroups : List Group :=
  [.legacy .api ["v1"], .legacy .oapi [], .named "apps" ["v1"] none]

/-- The exchanges for the lists of these groups. -/
def joblessLists : List Exchange :=
  [listing (.legacy .api ["v1"]) "v1" podList,
    listing (.named "apps" ["v1"] none) "v1" deploymentList]

/-- The exchanges with this cluster when jobs are not wanted. -/
def joblessLog : List Exchange :=
  workRoots ["v1"] ++ joblessLists

theorem result?_joblessLog {mode : Mode} (apps : mode.wants "apps" = true)
    (batch : mode.wants "batch" = false) :
    ∃ registry, (pass mode).result? joblessLog = some (.ok ⟨joblessGroups, registry⟩) := by
  have groups : kept mode ⟨["v1"]⟩ ⟨[]⟩ ⟨workGroups⟩ = joblessGroups := by
    simp [kept, wanted, workGroups, joblessGroups, Group.ofInfo, apps, batch]
  have keeps := keeps_work mode ["v1"] joblessLists
  rw [groups] at keeps
  exact exists_pass keeps
    (.cons ⟨rfl, podList, listOf_served podList, by decide⟩
      (.cons ⟨rfl, deploymentList, listOf_served deploymentList, by decide⟩ .nil))

end Discovery
end ApiCatalog
