import ApiCatalog.Proofs.Dialogue.ByUri
import ApiCatalog.Proofs.Discovery.Due
import ApiCatalog.Proofs.Discovery.Parts
import ApiCatalog.Proofs.Mapper.Advertised

/-!
# Filtering

Against a service that answers by the uri it makes no difference whether groups are filtered while
they are discovered or afterwards. A filtered pass asks less, so it may also succeed where the
unfiltered one does not, and what the service has to say about a group that is rejected is never
found out.

- `Discovery.Mode.admits`        : which groups a mode lets through, legacy ones always
- `Discovery.done_of_everything` : a filtered pass finds the admitted part of an unfiltered one
- `Discovery.OnlyRejected`       : the uris that a filtered pass has no use for
- `Discovery.outcome_of_unused`  : their answers do not matter
- `Mapper.filter_commutes`       : filtering and discovery, for all services of this kind
-/

namespace ApiCatalog
namespace Discovery

open Client (documentOf listOf)
open Dialogue (Answered ByUri)
open Http (Request)

/-! ## Admitted groups -/

/-- Whether a mode lets a group through that has this name, if it has one. -/
def Mode.admits (mode : Mode) (name : Option String) : Bool :=
  name.all mode.wants

theorem wants_everything (name : String) : everything.wants name = true := by
  rfl

/-- What a mode keeps is the part that it admits of everything. -/
theorem filter_kept (mode : Mode) (api oapi : Wire.Versions) (list : Wire.GroupList) :
    (kept everything api oapi list).filter (mode.admits ·.name) = kept mode api oapi list := by
  have named : (wanted everything list.groups).filter (mode.admits ·.name) =
      wanted mode list.groups := by
    simp only [wanted, wants_everything, List.filter_true, List.filter_map]
    rfl
  rw [kept, List.filter_cons_of_pos (by rfl), List.filter_cons_of_pos (by rfl), named, kept]

/-! ## Filtering an unfiltered pass -/

section Answers

variable {answer : Uri → Option Reply} {log : List Exchange} {catalog : Catalog}

/-- The exchanges of a filtered pass: those with the roots, and the part of the admitted groups. -/
def filteredLog (mode : Mode) (catalog : Catalog) (log : List Exchange) : List Exchange :=
  log.take ApiRoot.all.length ++
    (part (mode.admits ·.name) (listings catalog.groups) (listed log)).map Prod.snd

/-- Along the admitted exchanges a filtered pass completes, and finds what is admitted. -/
theorem result?_filtered (done : (pass everything).result? log = some (.ok catalog)) (mode : Mode) :
    ∃ filtered, (pass mode).result? (filteredLog mode catalog log) = some (.ok filtered) ∧
      filtered.groups = catalog.groups.filter (mode.admits ·.name) ∧
      filtered.registry.toList = catalog.registry.toList.filter (mode.admits ·.key.group) := by
  have ⟨keeps, built⟩ := result?_pass_ok.1 done
  have exchanged := exchanges_collect built
  have asked := map_fst_part (p := fun g => mode.admits g.name) exchanged.length_eq
  have keeps' : Keeps mode (filteredLog mode catalog log)
      (catalog.groups.filter (mode.admits ·.name)) := by
    rcases keeps with ⟨a, o, g, later, api, oapi, list, rfl, readApi, readOapi, readList, groups⟩
    refine ⟨a, o, g, _, api, oapi, list, rfl, readApi, readOapi, readList, ?_⟩
    rw [groups, filter_kept]
  have behind : listed (filteredLog mode catalog log) =
      (part (mode.admits ·.name) (listings catalog.groups) (listed log)).map Prod.snd := by
    rcases keeps with ⟨a, o, g, later, api, oapi, list, rfl, -, -, -, -⟩
    rfl
  -- each exchange of the part was one of the unfiltered pass
  have brought : List.Forall₂ Brings (listings (catalog.groups.filter (mode.admits ·.name)))
      (listed (filteredLog mode catalog log)) := by
    rw [behind, ← asked, List.forall₂_map_left_iff, List.forall₂_map_right_iff, List.forall₂_same]
    intro x mem
    exact List.forall₂_zip exchanged (List.mem_of_mem_filter mem)
  rcases exists_pass keeps' brought with ⟨registry, done'⟩
  refine ⟨_, done', rfl, ?_⟩
  have shows (a : Advert) : mode.admits a.key.group = mode.admits a.group.name := rfl
  have reflects := reflects_pass done'
  rw [behind, ← asked, ← told_filter (P := fun k => mode.admits k.group) shows] at reflects
  exact (reflects_pass done).restrict (P := fun k => mode.admits k.group) reflects

theorem filteredLog_subset (mode : Mode) (catalog : Catalog) (log : List Exchange) :
    filteredLog mode catalog log ⊆ log := by
  intro x mem
  rcases List.mem_append.1 mem with root | later
  · exact List.mem_of_mem_take root
  · rcases List.mem_map.1 later with ⟨⟨l, y⟩, inside, rfl⟩
    exact List.mem_of_mem_drop (List.of_mem_zip (List.mem_of_mem_filter inside)).2

end Answers

/-! ## Uris of rejected groups -/

/-- The versions that a legacy root tells, none if it brings no such document. -/
def versionsAt (answer : Uri → Option Reply) (root : ApiRoot) : List String :=
  match (answer (rootRequest root).uri).map (documentOf Wire.Versions) with
  | some (.ok doc) => doc.versions
  | _ => []

/-- The named groups that are told. -/
def infosAt (answer : Uri → Option Reply) : List Wire.GroupInfo :=
  match (answer (rootRequest .apis).uri).map (documentOf Wire.GroupList) with
  | some (.ok list) => list.groups
  | _ => []

/-- The groups that the roots tell. -/
def offered (answer : Uri → Option Reply) : List Group :=
  .legacy .api (versionsAt answer .api) :: .legacy .oapi (versionsAt answer .oapi) ::
    (infosAt answer).map .ofInfo

/-- The list of a group at one of its versions is served at this uri. -/
def Uses (g : Group) (u : Uri) : Prop :=
  ∃ v ∈ g.versions, Uri.parse ("/" ++ g.pathFor v) = .ok u

/-- Some rejected group uses the uri, and no other group does and no root. -/
def OnlyRejected (mode : Mode) (answer : Uri → Option Reply) (u : Uri) : Prop :=
  (∃ g ∈ offered answer, mode.admits g.name = false ∧ Uses g u) ∧
    (∀ root, u ≠ (rootRequest root).uri) ∧
    ∀ g ∈ offered answer, mode.admits g.name = true → ¬Uses g u

variable {mode : Mode} {answer answer' : Uri → Option Reply}

theorem offered_congr
    (roots : ∀ root, answer (rootRequest root).uri = answer' (rootRequest root).uri) :
    offered answer = offered answer' := by
  simp only [offered, versionsAt, infosAt, roots]

theorem offered_eq {a o g : Reply} {api oapi : Wire.Versions} {list : Wire.GroupList}
    (at_api : answer (rootRequest .api).uri = some a)
    (at_oapi : answer (rootRequest .oapi).uri = some o)
    (at_apis : answer (rootRequest .apis).uri = some g)
    (readApi : documentOf Wire.Versions a = .ok api)
    (readOapi : documentOf Wire.Versions o = .ok oapi)
    (readList : documentOf Wire.GroupList g = .ok list) :
    offered answer = kept everything api oapi list := by
  simp [offered, versionsAt, infosAt, at_api, at_oapi, at_apis, readApi, readOapi, readList, kept,
    wanted, wants_everything]

theorem offered_of_keeps {log : List Exchange} {groups : List Group}
    (keeps : Keeps everything log groups) (answered : Answered answer log) :
    offered answer = groups := by
  rcases keeps with ⟨a, o, g, later, api, oapi, list, rfl, readApi, readOapi, readList, rfl⟩
  exact offered_eq (answered (rootRequest .api, a) (by simp))
    (answered (rootRequest .oapi, o) (by simp)) (answered (rootRequest .apis, g) (by simp))
    readApi readOapi readList

/-- What a pass asks for up to its end are the uris that are due. -/
theorem uris_of_result? {log : List Exchange} {o : Except Error Catalog}
    (ends : (pass mode).result? log = some o) :
    ∃ uris : List Uri, log.map Prod.fst = uris.map asking ∧
      uris.map .ok <+: (due mode (log.map Prod.snd)).map (Uri.parse ·.uri) := by
  rcases Option.bind_eq_some_iff.1 ends with ⟨left, follows, ended⟩
  have course := Dialogue.course_of_follow follows
  rw [Dialogue.pending?_of_ending? ended, course_pass] at course
  rcases asked_walk (due mode (log.map Prod.snd)) (log.map Prod.snd) with ⟨uris, asked, among⟩
  refine ⟨uris, ?_, among⟩
  have requests := congrArg Dialogue.Course.asked course
  rw [Dialogue.Course.asked_map, asked] at requests
  simpa using requests.symm

/-- The roots are asked for first, in their order. -/
theorem uri_of_root {log : List Exchange} {o : Except Error Catalog}
    (ends : (pass mode).result? log = some o) {root : ApiRoot} {x : Exchange}
    (there : log[root.rank]? = some x) : x.1.uri = (rootRequest root).uri := by
  rcases uris_of_result? ends with ⟨uris, requests, among⟩
  have at_rank : (uris.map asking)[root.rank]? = some x.1 := by
    rw [← requests, List.getElem?_map, there]
    rfl
  rw [List.getElem?_map, Option.map_eq_some_iff] at at_rank
  rcases at_rank with ⟨u, at_u, request⟩
  have due_u : ((due mode (log.map Prod.snd)).map (Uri.parse ·.uri))[root.rank]? =
      some (.ok u) := by
    rcases List.getElem?_eq_some_iff.1 at_u with ⟨inside, same⟩
    rw [List.prefix_iff_getElem?.1 among root.rank (by simpa using inside)]
    simp [same]
  have parsed : Uri.parse ("/" ++ root.name) = .ok u := by
    cases root <;> exact Option.some.inj due_u
  rw [parse_root] at parsed
  rw [← request]
  exact (Except.ok.inj parsed).symm

/-- The groups that replies tell are offered by the answers, and admitted. -/
theorem offered_of_mem_groupsTold {log : List Exchange} {o : Except Error Catalog}
    (ends : (pass mode).result? log = some o) (answered : Answered answer log) {g : Group}
    (mem : g ∈ groupsTold mode (log.map Prod.snd)) :
    g ∈ offered answer ∧ mode.admits g.name = true := by
  have brought {root : ApiRoot} {x : Exchange} (there : log[root.rank]? = some x) :
      answer (rootRequest root).uri = some x.2 := by
    rw [← uri_of_root ends there]
    exact answered x (List.mem_of_getElem? there)
  rcases log with _ | ⟨x, _ | ⟨y, _ | ⟨z, later⟩⟩⟩
  · cases mem
  · cases mem
  · cases mem
  · simp only [List.map_cons, groupsTold] at mem
    -- groups are told when all three documents are read
    split at mem
    · next api oapi list readApi readOapi readList =>
        have all := offered_eq (@brought .api _ rfl) (@brought .oapi _ rfl) (@brought .apis _ rfl)
          readApi readOapi readList
        rw [← filter_kept, ← all, List.mem_filter] at mem
        exact mem
    · cases mem

/-- A pass never asks for a uri of rejected groups alone. -/
theorem not_onlyRejected {log : List Exchange} {o : Except Error Catalog}
    (ends : (pass mode).result? log = some o) (answered : Answered answer log) {x : Exchange}
    (mem : x ∈ log) : ¬OnlyRejected mode answer x.1.uri := by
  rcases uris_of_result? ends with ⟨uris, requests, among⟩
  have request : x.1 ∈ uris.map asking := by
    rw [← requests]
    exact List.mem_map_of_mem mem
  rcases List.mem_map.1 request with ⟨u, asked, same⟩
  have due_u : Except.ok u ∈ (due mode (log.map Prod.snd)).map (Uri.parse ·.uri) :=
    among.subset (List.mem_map_of_mem asked)
  rcases List.mem_map.1 due_u with ⟨stage, there, parsed⟩
  rw [← same]
  rintro ⟨-, no_root, no_other⟩
  simp only [due, List.mem_cons, List.mem_map] at there
  -- the uri is that of a root, or that of a list of an admitted group
  have root (root : ApiRoot) (uri : Uri.parse ("/" ++ root.name) = .ok u) : False := by
    rw [parse_root] at uri
    exact no_root root (Except.ok.inj uri).symm
  rcases there with rfl | rfl | rfl | ⟨l, listed, rfl⟩
  · exact root .api parsed
  · exact root .oapi parsed
  · exact root .apis parsed
  · rcases mem_listings.1 listed with ⟨told, version⟩
    rcases offered_of_mem_groupsTold ends answered told with ⟨there, admitted⟩
    exact no_other l.1 there admitted ⟨l.2, version, parsed⟩

/-- Services with the same answers, but for uris of rejected groups alone, lead a filtered pass to
the same end. -/
theorem outcome_of_unused {σ σ' : Type} {serve : Dialogue.Service σ} {serve' : Dialogue.Service σ'}
    (byUri : ByUri serve answer) (byUri' : ByUri serve' answer')
    (same : ∀ u, ¬OnlyRejected mode answer u → answer u = answer' u) (s : σ) (s' : σ') :
    ((pass mode).against serve s).outcome = ((pass mode).against serve' s').outcome := by
  -- no root is among those uris, so both services offer the same groups
  have roots (root : ApiRoot) : answer (rootRequest root).uri = answer' (rootRequest root).uri :=
    same _ fun h => h.2.1 root rfl
  have rejected (u : Uri) : OnlyRejected mode answer u ↔ OnlyRejected mode answer' u := by
    rw [OnlyRejected, offered_congr roots, OnlyRejected]
  apply Dialogue.outcome_congr byUri byUri'
  · intro log o ends answered x mem
    rw [← same _ (not_onlyRejected ends answered mem)]
    exact answered x mem
  · intro log o ends answered x mem
    rw [same _ fun h => not_onlyRejected ends answered mem ((rejected _).1 h)]
    exact answered x mem

/-! ## Filtered passes with a service -/

/-- When the unfiltered pass completes with a service that answers by the uri, every filtered pass
does, and finds what is admitted. -/
theorem done_of_everything {σ : Type} {serve : Dialogue.Service σ} (byUri : ByUri serve answer)
    {s : σ} {catalog : Catalog}
    (done : ((pass everything).against serve s).outcome = .done catalog) (mode : Mode) (t : σ) :
    ∃ filtered, ((pass mode).against serve t).outcome = .done filtered ∧
      filtered.groups = catalog.groups.filter (mode.admits ·.name) ∧
      filtered.registry.toList = catalog.registry.toList.filter (mode.admits ·.key.group) := by
  rw [← Dialogue.Outcome.ended?_eq_ok_iff, Dialogue.ended?_iff byUri] at done
  rcases done with ⟨log, ends, answered⟩
  rcases result?_filtered ends mode with ⟨filtered, ends', groups, endpoints⟩
  refine ⟨filtered, ?_, groups, endpoints⟩
  rw [← Dialogue.Outcome.ended?_eq_ok_iff, Dialogue.ended?_iff byUri]
  exact ⟨_, ends', fun x mem => answered x (filteredLog_subset mode catalog log mem)⟩

theorem root_of_done {σ : Type} {serve : Dialogue.Service σ} {s : σ} {catalog : Catalog}
    (done : ((pass everything).against serve s).outcome = .done catalog) {e : Endpoint}
    (mem : e ∈ catalog.registry.toList) :
    e.key.group = none ↔ e.key.root = .api ∨ e.key.root = .oapi := by
  rw [← Dialogue.Outcome.ended?_eq_ok_iff, ← Dialogue.result?_heard] at done
  exact group_eq_none_iff done mem

end Discovery

/-! ## Settings -/

namespace Mapper

open Discovery
open Dialogue (ByUri)

/-- The mode that a setting sets, if it sets one. -/
def Setting.mode? : Setting → Option Mode
  | .filter names => some (.allow names)
  | .exclude names => some (.block names)
  | .prefer _ _ => none

theorem mode_apply {m m' : Mapper} {setting : Setting} (set : m.apply setting = .ok m') :
    m'.mode = setting.mode?.getD m.mode := by
  cases setting with
  | filter names =>
      cases set
      rfl
  | exclude names =>
      cases set
      rfl
  | prefer root version =>
      cases changed : m.preferred.override root version with
      | error fault => simp [apply, changed, bind, Except.bind] at set
      | ok p =>
          simp only [apply, changed, bind, Except.bind, pure, Except.pure, Except.ok.injEq] at set
          rw [← set]
          rfl

/-- Of all filters and exclusions only the last counts. -/
theorem mode_applyAll {m m' : Mapper} {settings : List Setting}
    (set : m.applyAll settings = .ok m') :
    m'.mode = (settings.filterMap Setting.mode?).getLast?.getD m.mode := by
  induction settings generalizing m with
  | nil =>
      cases set
      rfl
  | cons setting rest ih =>
      rw [applyAll, List.foldlM_cons] at set
      cases first : m.apply setting with
      | error fault =>
          rw [first] at set
          cases set
      | ok next =>
          rw [first] at set
          rw [ih set, mode_apply first]
          cases told : setting.mode? with
          | none => simp [told]
          | some mode => simp [told, List.getLast?_cons]

/-! ## Filters and exclusions -/

/-- Filtering commutes with discovery. Take any service that answers by the uri. When the unfiltered
pass completes with it, a pass with a filter and one with the same names excluded complete as well.
They find the groups and endpoints of the unfiltered one, in the same order and with all that is
told of them, that are legacy or have one of the names, or none of them; what is legacy is found by
both, and what is not by exactly one. Of all filters and exclusions that are set only the last
counts. Answers at uris that only rejected groups use make no difference to how a pass ends. -/
theorem filter_commutes {σ : Type} {serve : Dialogue.Service σ} {answer : Uri → Option Reply}
    (byUri : ByUri serve answer) :
    (∀ s catalog, ((pass everything).against serve s).outcome = .done catalog →
      ∀ (names : List String) (t : σ), ∃ allowed blocked,
        ((pass (.allow names)).against serve t).outcome = .done allowed ∧
        ((pass (.block names)).against serve t).outcome = .done blocked ∧
        allowed.groups = catalog.groups.filter (·.name.all (names.contains ·)) ∧
        allowed.registry.toList =
          catalog.registry.toList.filter (·.key.group.all (names.contains ·)) ∧
        blocked.groups = catalog.groups.filter (·.name.all (!names.contains ·)) ∧
        blocked.registry.toList =
          catalog.registry.toList.filter (·.key.group.all (!names.contains ·)) ∧
        ∀ e ∈ catalog.registry.toList,
          (e.key.group = none ↔ e.key.root = .api ∨ e.key.root = .oapi) ∧
          (e.key.group = none → e ∈ allowed.registry.toList ∧ e ∈ blocked.registry.toList) ∧
          (e.key.group ≠ none →
            (e ∈ allowed.registry.toList ↔ e ∉ blocked.registry.toList))) ∧
    (∀ (m m' : Mapper) (settings : List Setting), m.applyAll settings = .ok m' →
      m'.mode = (settings.filterMap Setting.mode?).getLast?.getD m.mode) ∧
    ∀ (mode : Mode) (σ' : Type) (serve' : Dialogue.Service σ') (answer' : Uri → Option Reply),
      ByUri serve' answer' → (∀ u, ¬OnlyRejected mode answer u → answer u = answer' u) →
        ∀ s s',
          ((pass mode).against serve s).outcome = ((pass mode).against serve' s').outcome := by
  refine ⟨?_, fun m m' settings => mode_applyAll, ?_⟩
  · intro s catalog done names t
    rcases done_of_everything byUri done (.allow names) t with ⟨allowed, ends, groups, endpoints⟩
    rcases done_of_everything byUri done (.block names) t with
      ⟨blocked, ends', groups', endpoints'⟩
    refine ⟨allowed, blocked, ends, ends', groups, endpoints, groups', endpoints', ?_⟩
    intro e mem
    refine ⟨root_of_done done mem, ?_, ?_⟩
    · intro unnamed
      rw [endpoints, endpoints', List.mem_filter, List.mem_filter]
      simp [mem, unnamed, Mode.admits]
    · intro named
      rcases Option.ne_none_iff_exists'.1 named with ⟨name, group⟩
      rw [endpoints, endpoints', List.mem_filter, List.mem_filter]
      simp [mem, group, Mode.admits, Mode.wants]
  · intro mode σ' serve' answer' byUri' same s s'
    exact outcome_of_unused byUri byUri' same s s'

/-- The answers of a cluster that serves pods, deployments and jobs. -/
def workAnswers (u : Uri) : Option Reply :=
  (workLog.find? (·.1.uri = u)).map Prod.snd

/-- The same without the list of jobs. -/
def joblessAnswers (u : Uri) : Option Reply :=
  if u = .origin ⟨"/apis/batch/v1", none⟩ then none else workAnswers u

/-- A service with these answers and nothing else to it. -/
def serving (answer : Uri → Option Reply) : Dialogue.Service Unit :=
  fun _ request => ((), [], answer request.uri)

theorem byUri_serving (answer : Uri → Option Reply) : ByUri (serving answer) answer :=
  fun _ _ => rfl

theorem answered_workLog : Dialogue.Answered workAnswers workLog := by
  intro x mem
  simp only [workLog, workRoots, workLists, List.cons_append, List.nil_append, List.mem_cons,
    List.not_mem_nil, or_false] at mem
  rcases mem with rfl | rfl | rfl | rfl | rfl | rfl <;> rfl

/-- The list of jobs is of no use to a pass that is filtered for deployments. -/
theorem onlyRejected_jobs :
    OnlyRejected (.allow ["apps"]) workAnswers (.origin ⟨"/apis/batch/v1", none⟩) := by
  have offers : offered workAnswers = kept everything ⟨["v1"]⟩ ⟨[]⟩ ⟨workGroups⟩ := by
    rcases result?_workLog with ⟨registry, done⟩
    exact offered_of_keeps (result?_pass_ok.1 done).1 answered_workLog
  have elsewhere {g : Group} {u : Uri} (versions : g.versions = ["v1"])
      (parsed : Uri.parse ("/" ++ g.pathFor "v1") = .ok u)
      (other : u ≠ .origin ⟨"/apis/batch/v1", none⟩) :
      ¬Uses g (.origin ⟨"/apis/batch/v1", none⟩) := by
    rintro ⟨v, mem, there⟩
    rw [versions, List.mem_singleton] at mem
    rw [mem, parsed] at there
    exact other (Except.ok.inj there)
  refine ⟨?_, ?_, ?_⟩
  · rw [offers]
    refine ⟨.named "batch" ["v1"] none, ?_, by decide, "v1", List.mem_cons_self, rfl⟩
    simp [kept, wanted, workGroups, wants_everything, Group.ofInfo]
  · intro root
    cases root <;> decide
  · intro g mem admitted
    rw [offers] at mem
    simp only [kept, wanted, workGroups, wants_everything, Group.ofInfo, List.filter_true,
      List.map_cons, List.map_nil, Option.map_none, List.mem_cons, List.not_mem_nil,
      or_false] at mem
    rcases mem with rfl | rfl | rfl | rfl
    · exact elsewhere rfl rfl (by decide)
    · rintro ⟨v, mem, -⟩
      cases mem
    · exact elsewhere rfl rfl (by decide)
    · cases admitted

/-- Deployments are found and jobs are not when the names are filtered, and the other way round when
they are excluded, whether or not there is a list of jobs in the first case. -/
theorem filter_commutes_work :
    ∃ allowed blocked : Catalog,
      ((pass (.allow ["apps"])).against (serving workAnswers) ()).outcome = .done allowed ∧
      ((pass (.allow ["apps"])).against (serving joblessAnswers) ()).outcome = .done allowed ∧
      ((pass (.block ["apps"])).against (serving workAnswers) ()).outcome = .done blocked ∧
      allowed.groups.map Group.name = [none, none, some "apps"] ∧
      blocked.groups.map Group.name = [none, none, some "batch"] := by
  have byUri := byUri_serving workAnswers
  rcases result?_workLog with ⟨registry, ends⟩
  have done := Dialogue.ended?_of_answered byUri ends answered_workLog ()
  rw [Dialogue.Outcome.ended?_eq_ok_iff] at done
  have ⟨filters, _, unused⟩ := filter_commutes byUri
  rcases filters () _ done ["apps"] () with
    ⟨allowed, blocked, ends, ends', groups, -, groups', -⟩
  have same (u : Uri) (used : ¬OnlyRejected (.allow ["apps"]) workAnswers u) :
      workAnswers u = joblessAnswers u := by
    -- the answers differ for the list of jobs alone
    have other : u ≠ .origin ⟨"/apis/batch/v1", none⟩ := by
      intro jobs
      exact used (jobs ▸ onlyRejected_jobs)
    rw [joblessAnswers, if_neg other]
  have jobless := unused _ _ _ _ (byUri_serving joblessAnswers) same () ()
  refine ⟨allowed, blocked, ends, jobless ▸ ends, ends', ?_, ?_⟩
  · rw [groups]
    rfl
  · rw [groups']
    rfl

end Mapper
end ApiCatalog
