import ApiCatalog.Proofs.Discovery.Due

/-!
# The requests of a discovery pass

What a pass asks for is determined by the replies that it has got: the roots, then one path for each
version of each group that they tell. It asks in that order and stops where it fails.

- `Discovery.paths`            : the uris that groups make due, as texts
- `Discovery.requests_of_pass` : a pass asks for these, all of them when it completes
-/

namespace ApiCatalog
namespace Discovery

/-! ## Paths -/

/-- The roots, and below them the lists of groups at their versions. -/
def paths (groups : List Group) : List String :=
  ["/api", "/oapi", "/apis"] ++ (listings groups).map fun (g, v) => "/" ++ g.pathFor v

variable {mode : Mode} {replies : List Reply}

theorem map_uri_due : (due mode replies).map Stage.uri = paths (groupsTold mode replies) := by
  simp [due, paths, Stage.uri, Stage.ofListing, ApiRoot.name, Function.comp_def]

theorem map_parse_due :
    (due mode replies).map (Uri.parse ·.uri) =
      (paths (groupsTold mode replies)).map Uri.parse := by
  rw [← map_uri_due, List.map_map]
  rfl

/-- A path is a root, or the list of a group at one of its versions. -/
theorem mem_paths {groups : List Group} {path : String} :
    path ∈ paths groups ↔ (∃ root : ApiRoot, path = "/" ++ root.name) ∨
      ∃ g ∈ groups, ∃ v ∈ g.versions, path = "/" ++ g.pathFor v := by
  have roots : path ∈ ["/api", "/oapi", "/apis"] ↔ ∃ root : ApiRoot, path = "/" ++ root.name := by
    constructor
    · intro mem
      simp only [List.mem_cons, List.not_mem_nil, or_false] at mem
      rcases mem with rfl | rfl | rfl
      · exact ⟨.api, by decide⟩
      · exact ⟨.oapi, by decide⟩
      · exact ⟨.apis, by decide⟩
    · rintro ⟨root, rfl⟩
      cases root <;> decide
  rw [paths, List.mem_append, roots]
  simp only [List.mem_map, Prod.exists, mem_listings]
  grind

/-! ## Failing -/

/-- A pass that fails sends nothing for the stage that has no uri, and nothing behind the stage that
fails. -/
theorem length_asked_of_fails {e : Error} {i : Nat}
    (first : FirstAt (Stage.Fails e) (due mode replies) replies i) :
    ∃ path, (paths (groupsTold mode replies))[i]? = some path ∧
      ((∃ fault, Uri.parse path = .error fault ∧ e = .badRequest (.badUri fault) ∧
          (walk (due mode replies) replies).asked.length = i) ∨
        ∃ u, Uri.parse path = .ok u ∧
          (walk (due mode replies) replies).asked.length = i + 1) := by
  have stops (stage : Stage) (answer : Option Reply) (fails : stage.Fails e answer) :
      ¬stage.Passes answer := by
    rw [← Stage.ending_step_eq_ok_iff, Stage.ending_step_eq_error_iff.2 fails]
    simp
  have ⟨stage, there, fails, _⟩ := first
  -- the `i` stages before have asked once each, so this one decides whether it is `i` or one more
  have long := length_asked_walk_of_firstAt stops first there
  refine ⟨stage.uri, by simp [← map_uri_due, there], ?_⟩
  rcases stage.asked_step replies[i]? with ⟨u, made, asked⟩ | ⟨fault, bad, step⟩
  · exact .inr ⟨u, made, by simp [long, asked]⟩
  · have ends := Stage.ending_step_eq_error_iff.2 fails
    simp only [step, Option.some.injEq, Except.error.injEq] at ends
    exact .inl ⟨fault, bad, ends.symm, by simp [long, step]⟩

/-- The requests of a pass are for the roots and then for the lists of the groups that the roots
have told, in this order, each once for every time that it is listed; these are the requests of
every log that the pass is followed along. A pass that completes has asked for all of them. One that
fails has asked for those up to the place where it fails, and not even there if the path is no uri.
No list of a named group is asked for that the mode does not want. -/
theorem requests_of_pass (mode : Mode) (replies : List Reply) :
    let run := (pass mode).course replies
    let groups := groupsTold mode replies
    (∀ log left, (pass mode).follow log = some left → log.map Prod.snd = replies →
      run.asked = log.map Prod.fst ++ left.pending?.toList) ∧
    ∃ uris : List Uri, run.asked = uris.map asking ∧
      uris.map .ok <+: (paths groups).map Uri.parse ∧
      (∀ catalog, run.ending = some (.ok catalog) →
        uris.map .ok = (paths groups).map Uri.parse ∧ catalog.groups = groups ∧
          Roots mode replies groups) ∧
      (∀ e, run.ending = some (.error e) →
        ∃ i path, FirstAt (Stage.Fails e) (due mode replies) replies i ∧
          (paths groups)[i]? = some path ∧
          ((∃ fault, Uri.parse path = .error fault ∧ e = .badRequest (.badUri fault) ∧
              uris.length = i) ∨
            ∃ u, Uri.parse path = .ok u ∧ uris.length = i + 1)) ∧
      ∀ u ∈ uris, (∃ root : ApiRoot, Uri.parse ("/" ++ root.name) = .ok u) ∨
        ∃ g ∈ groups, ∃ v ∈ g.versions, Uri.parse ("/" ++ g.pathFor v) = .ok u ∧
          ∀ name, g.name = some name → mode.wants name = true := by
  intro run groups
  have walked : run = (walk (due mode replies) replies).map fun _ => catalogTold mode replies :=
    course_pass mode replies
  rcases asked_walk (due mode replies) replies with ⟨uris, asked, among⟩
  rw [map_parse_due] at among
  have requests : run.asked = uris.map asking := by rw [walked, Dialogue.Course.asked_map, asked]
  refine ⟨?_, uris, requests, among, ?_, ?_, ?_⟩
  · rintro log left follows rfl
    exact congrArg Dialogue.Course.asked (Dialogue.course_of_follow follows)
  · intro catalog completes
    rcases ending_pass_eq_ok_iff.1 completes with ⟨through, rfl⟩
    -- a prefix of the paths that is as long as they are
    refine ⟨?_, rfl, roots_of_passes (ending_walk_eq_ok_iff.1 through)⟩
    apply among.eq_of_length
    have all := length_asked_walk through
    rw [asked] at all
    simpa [← map_uri_due] using all
  · intro e fails
    rw [walked, Dialogue.Course.ending_map_eq_error, ending_walk_eq_error_iff] at fails
    rcases fails with ⟨i, first⟩
    rcases length_asked_of_fails first with ⟨path, there, stops⟩
    refine ⟨i, path, first, there, ?_⟩
    simpa [asked] using stops
  · intro u mem
    have listed : Except.ok u ∈ (paths groups).map Uri.parse :=
      among.subset (List.mem_map_of_mem mem)
    rcases List.mem_map.1 listed with ⟨path, there, parsed⟩
    rcases mem_paths.1 there with ⟨root, rfl⟩ | ⟨g, mem, v, version, rfl⟩
    · exact .inl ⟨root, parsed⟩
    · refine .inr ⟨g, mem, v, version, parsed, ?_⟩
      intro name named
      exact wants_of_mem_groupsTold mem named

example : paths podGroups = ["/api", "/oapi", "/apis", "/api/v1"] := by decide

end Discovery
end ApiCatalog
