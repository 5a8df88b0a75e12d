import ApiCatalog.Proofs.Discovery.Stages

/-!
# What replies make due

The replies to the roots tell the groups, and with them every stage of a pass. The course of a pass
is the walk through these stages, and its catalog is what the replies tell.

- `Discovery.groupsTold`, `Discovery.due` : the groups that replies tell, and the stages
- `Discovery.callsTold`, `Discovery.catalogTold` : the lists that replies bring, and the catalog
- `Discovery.course_pass` : the course of a pass is the walk through what is due
-/

namespace ApiCatalog
namespace Discovery

open Client (Tells documentOf listOf)
open Dialogue (Asks Course)
open Http (Request)

/-! ## Replies to the roots -/

/-- The groups that a pass keeps, once the first three replies have told them. -/
def groupsTold (mode : Mode) : List Reply → List Group
  | a :: o :: g :: _ =>
      match documentOf Wire.Versions a, documentOf Wire.Versions o, documentOf Wire.GroupList g with
      | .ok api, .ok oapi, .ok list => kept mode api oapi list
      | _, _, _ => []
  | _ => []

/-- The stages of a pass: the roots, and the listings of the groups that are told. -/
def due (mode : Mode) (replies : List Reply) : List Stage :=
  .versions .api :: .versions .oapi :: .groups ::
    (listings (groupsTold mode replies)).map Stage.ofListing

/-! ## Replies to the listings -/

/-- The calls that add the lists which replies bring. -/
def callsTold (asked : List (Group × String)) (replies : List Reply) : List Registry.Call :=
  (asked.zip replies).filterMap fun (listing, reply) =>
    match listOf reply with
    | .ok doc => some (.list listing.1 listing.2 doc)
    | .error _ => none

theorem callsTold_cons {group : Group} {version : String} {rest : List (Group × String)}
    {reply : Reply} {later : List Reply} {doc : Wire.ResourceList} (read : listOf reply = .ok doc) :
    callsTold ((group, version) :: rest) (reply :: later) =
      .list group version doc :: callsTold rest later := by
  simp [callsTold, read]

/-- The catalog that replies tell. -/
def catalogTold (mode : Mode) (replies : List Reply) : Catalog :=
  let groups := groupsTold mode replies
  ⟨groups, .ofCalls (callsTold (listings groups) (replies.drop ApiRoot.all.length))⟩

/-! ## Uris -/

theorem discoveryUri_pathFor (group : Group) (version : String) :
    Client.discoveryUri (group.pathFor version) = (Stage.listing group version).uri := by
  have bare : Text.dropLeading '/' (group.pathFor version) = group.pathFor version := by
    unfold Text.dropLeading Group.pathFor Group.path
    rcases group with ⟨_ | _ | _, versions⟩ | ⟨name, versions, preferred⟩ <;>
      simp [Group.name, Group.root, ApiRoot.name, ← String.toList_inj]
  rw [Client.discoveryUri, bare, Stage.uri]

theorem get?_listing (group : Group) (version : String) :
    Request.get? (Client.discoveryUri (group.pathFor version)) =
      ((Uri.parse (Stage.listing group version).uri).map asking).mapError .badUri := by
  rw [discoveryUri_pathFor, get?_eq]

/-! ## One stage after another -/

/-- A dialogue that asks for a stage and goes on as the verdict tells walks through that stage. -/
theorem course_bind_stage {α β : Type} {d : Dialogue α} {f : α → Dialogue β} {g : Unit → β}
    {stage : Stage} {u : Uri} {judge : Reply → Except Error α} (made : Uri.parse stage.uri = .ok u)
    (asks : Asks d (asking u) judge) {rest : List Stage} {replies : List Reply}
    (fails : ∀ reply e, judge reply = .error e → stage.verdict reply = .error e)
    (goes : ∀ reply later x, replies = reply :: later → judge reply = .ok x →
      stage.verdict reply = .ok () ∧ (f x).course later = (walk rest later).map g ∨
        ∃ e, stage.verdict reply = .error e ∧ (f x).course later = ⟨[], some (.error e)⟩) :
    (d.bind f).course replies = (walk (stage :: rest) replies).map g := by
  cases replies with
  | nil => simp [asks.course_bind_nil, walk, Stage.step, made, Course.andThen, Course.map]
  | cons reply later =>
      cases read : judge reply with
      | error e =>
          simp [asks.course_bind_error read, walk, Stage.step, made, fails reply e read,
            Course.andThen, Course.map, Except.map]
      | ok x =>
          rcases goes reply later x rfl read with ⟨told, goes_on⟩ | ⟨e, told, ends⟩
          · simp [asks.course_bind_ok read, goes_on, walk, Stage.step, made, told, Course.andThen,
              Course.map, Course.after]
          · simp [asks.course_bind_ok read, ends, walk, Stage.step, made, told, Course.andThen,
              Course.map, Course.after, Except.map]

/-! ## The listings -/

/-- Adding a list to a registry ends as the verdict on its listing does. -/
theorem addList_of_verdict {reply : Reply} {list : Wire.ResourceList}
    (read : listOf reply = .ok list) (r : Registry) (group : Group) (version : String) :
    (∃ fault, r.addList group version list = (r, some fault) ∧
      (Stage.listing group version).verdict reply = .error (.naming fault)) ∨
    r.addList group version list = (((Registry.Call.list group version list).perform r).1, none) ∧
      (Stage.listing group version).verdict reply = .ok () := by
  have ⟨refused, taken⟩ := r.addEntries_spec group version list.resources
  simp only [Stage.verdict, read]
  by_cases empty : version = ""
  · by_cases entries : list.resources = []
    · refine .inr ⟨?_, by simp [entries]⟩
      simp [Registry.Call.perform, Registry.addList, entries, Registry.addEntries]
    · exact .inl ⟨.emptyVersion, refused empty entries, by simp [empty, entries]⟩
  · exact .inr ⟨Prod.ext rfl (taken empty).1, by simp [empty]⟩

/-- To collect lists is to walk through their listings; the registry grows by what is told. -/
theorem course_collect (r : Registry) (asked : List (Group × String)) (replies : List Reply) :
    (collect r asked).course replies =
      (walk (asked.map Stage.ofListing) replies).map fun _ =>
        (callsTold asked replies).foldl (fun r c => (c.perform r).1) r := by
  -- the registry that the earlier listings have made is general, and so are the replies left
  induction asked generalizing r replies with
  | nil => rfl
  | cons listing rest ih =>
      rcases listing with ⟨group, version⟩
      have made := get?_listing group version
      rw [collect, Dialogue.bind_eq, List.map_cons]
      cases parsed : Uri.parse (Stage.listing group version).uri with
      | error fault =>
          -- no uri, so nothing is asked
          rw [parsed] at made
          have fails := Client.ending?_resourceList made
          rw [Dialogue.course_bind, Dialogue.course_of_ending? fails]
          simp [walk, Stage.ofListing, Stage.step, parsed, Course.andThen, Course.map, Except.map]
      | ok u =>
          rw [parsed] at made
          refine course_bind_stage parsed (Client.asks_resourceList made) ?_ ?_
          · intro reply e read
            simp [Stage.verdict, read]
          · rintro reply later list rfl read
            rw [callsTold_cons read, List.foldl_cons]
            rcases addList_of_verdict read r group version with
              ⟨fault, refused, told⟩ | ⟨taken, told⟩
            · exact .inr ⟨_, told, by simp [refused, Dialogue.course]⟩
            · exact .inl ⟨told, by simpa [taken] using ih _ later⟩

/-! ## The whole pass -/

theorem parse_root (root : ApiRoot) :
    Uri.parse ("/" ++ root.name) = .ok (rootRequest root).uri := by
  cases root <;> rfl

/-- A legacy root is asked for its versions, which make a group without another request. -/
theorem course_legacyGroups {β : Type} {root : ApiRoot} (legacy : root.isLegacy = true)
    {roots : List ApiRoot} {f : List Group → Dialogue β} {g : Unit → β} {rest : List Stage}
    {replies : List Reply}
    (goes : ∀ reply later doc, replies = reply :: later → documentOf Wire.Versions reply = .ok doc →
      ((legacyGroups roots).bind fun more => f (.legacy root doc.versions :: more)).course later =
        (walk rest later).map g) :
    ((legacyGroups (root :: roots)).bind f).course replies =
      (walk (.versions root :: rest) replies).map g := by
  have made : Uri.parse (Stage.versions root).uri = .ok _ := parse_root root
  simp only [legacyGroups, Dialogue.bind_eq, Dialogue.bind_assoc]
  refine course_bind_stage made (Client.asks_legacyVersions legacy (get?_root root)) ?_ ?_
  · intro reply e read
    simp [Stage.verdict, read, Except.map]
  · intro reply later doc split read
    refine .inl ⟨by simp [Stage.verdict, read, Except.map], ?_⟩
    rw [Dialogue.course_bind_of_ending? (ending?_legacyGroup legacy doc)]
    exact goes reply later doc split read

/-- The list of groups is asked for, and with it the listings are known. -/
theorem course_afterLegacy {mode : Mode} {legacy : List Group} {replies : List Reply}
    {rest : List Stage} {catalog : Catalog}
    (goes : ∀ reply later list, replies = reply :: later →
      documentOf Wire.GroupList reply = .ok list →
      let groups := legacy ++ wanted mode list.groups
      catalog = ⟨groups, .ofCalls (callsTold (listings groups) later)⟩ ∧
        rest = (listings groups).map Stage.ofListing) :
    (afterLegacy mode legacy).course replies =
      (walk (.groups :: rest) replies).map fun _ => catalog := by
  have made : Uri.parse Stage.groups.uri = .ok _ := parse_root .apis
  refine course_bind_stage made (Client.asks_groupList (get?_root .apis)) ?_ ?_
  · intro reply e read
    simp [Stage.verdict, read, Except.map]
  · intro reply later list split read
    refine .inl ⟨by simp [Stage.verdict, read, Except.map], ?_⟩
    rcases goes reply later list split read with ⟨rfl, rfl⟩
    rw [Dialogue.bind_eq, Dialogue.course_bind_of_ending? (ending?_selectGroups mode list.groups),
      Dialogue.bind_eq, Dialogue.course_bind_silent fun _ => rfl, course_collect,
      Course.map_map]
    rfl

/-- The course of a pass is the walk through what is due. -/
theorem course_pass (mode : Mode) (replies : List Reply) :
    (pass mode).course replies =
      (walk (due mode replies) replies).map fun _ => catalogTold mode replies := by
  rw [pass_eq, Dialogue.course, ApiRoot.legacy]
  -- root by root: behind the third reply the groups are told, and what is left are the listings
  apply course_legacyGroups rfl
  rintro a later api rfl readApi
  apply course_legacyGroups rfl
  rintro o later oapi rfl readOapi
  apply course_afterLegacy
  rintro g later list rfl readList
  have groups : groupsTold mode (a :: o :: g :: later) = kept mode api oapi list := by
    simp [groupsTold, readApi, readOapi, readList]
  simp [catalogTold, groups, kept, ApiRoot.all]

/-! ## What has passed -/

variable {mode : Mode} {replies : List Reply}

theorem ending_pass_eq_ok_iff {catalog : Catalog} :
    ((pass mode).course replies).ending = some (.ok catalog) ↔
      (walk (due mode replies) replies).ending = some (.ok ()) ∧
        catalog = catalogTold mode replies := by
  rw [course_pass]
  rcases walk (due mode replies) replies with ⟨asked, _ | (e | x)⟩ <;>
    simp [Except.map, eq_comm]

/-- The replies to the roots are the first three, and the groups are those that they tell. -/
def Roots (mode : Mode) (replies : List Reply) (groups : List Group) : Prop :=
  ∃ a o g later, replies = a :: o :: g :: later ∧
    ∃ api oapi list, Tells a api ∧ Tells o oapi ∧ Tells g list ∧ groups = kept mode api oapi list

/-- When the roots have passed, their replies have told the groups. -/
theorem roots_of_passes
    (passes : ∀ (i : Nat) (stage : Stage), (due mode replies)[i]? = some stage →
      stage.Passes replies[i]?) :
    Roots mode replies (groupsTold mode replies) := by
  rcases passes 0 (.versions .api) rfl with ⟨-, a, -, at_0, api, tellsApi⟩
  rcases passes 1 (.versions .oapi) rfl with ⟨-, o, -, at_1, oapi, tellsOapi⟩
  rcases passes 2 .groups rfl with ⟨-, g, -, at_2, list, tellsList⟩
  rcases replies with _ | ⟨a', _ | ⟨o', _ | ⟨g', later⟩⟩⟩
  · cases at_0
  · cases at_1
  · cases at_2
  · cases at_0
    cases at_1
    cases at_2
    refine ⟨a, o, g, later, rfl, api, oapi, list, tellsApi, tellsOapi, tellsList, ?_⟩
    simp [groupsTold, Client.documentOf_eq_ok_iff.2 tellsApi,
      Client.documentOf_eq_ok_iff.2 tellsOapi, Client.documentOf_eq_ok_iff.2 tellsList]

/-- The mode wants every named group that is told. -/
theorem wants_of_mem_groupsTold {g : Group} (mem : g ∈ groupsTold mode replies) {name : String}
    (named : g.name = some name) : mode.wants name = true := by
  unfold groupsTold at mem
  split at mem
  · split at mem
    · exact wants_of_mem_kept mem named
    · cases mem
  · cases mem

end Discovery
end ApiCatalog
