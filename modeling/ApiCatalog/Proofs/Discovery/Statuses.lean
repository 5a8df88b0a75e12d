import ApiCatalog.Proofs.Client.Serving
import ApiCatalog.Proofs.Discovery.Due

/-!
# Statuses and completed passes

A failure status fails a pass wherever it comes. Every other status counts as a success, one of a
redirection too: a blank body under it is a list without entries.

- `Client.settled`       : a reply with a success in place of every status that tells no failure
- `Discovery.course_pass_settled` : a pass does not tell the two apart
- `Discovery.FailsPasses` : a status that fails every pass in which it comes
- `Discovery.failsPasses_iff` : these are the failure statuses, and no others
- `Discovery.statuses_of_pass` : what the statuses decide about a pass
- `Discovery.completed_by_redirection` : a pass that completes with a redirection
-/

namespace ApiCatalog
namespace Client

/-! ## Statuses that tell no failure -/

def settled : Reply → Reply
  | .response r =>
      if Http.isFailure r.status then .response r else .response { r with status := 200 }
  | reply => reply

theorem textOf_settled (reply : Reply) : textOf (settled reply) = textOf reply := by
  cases reply with
  | refused f => rfl
  | failed f => rfl
  | response r =>
      by_cases failure : Http.isFailure r.status = true
      · rw [settled, if_pos failure]
      · have success : ¬Http.isFailure 200 = true := by decide
        -- the body is read in the same way, and neither status stands against it
        have body : readBody { r with status := 200 } = readBody r := rfl
        simp [settled, textOf, receive, bind, Except.bind, failure, success, body]

theorem documentOf_settled (α : Type) [Wire.Document α] (reply : Reply) :
    documentOf α (settled reply) = documentOf α reply := by
  rw [documentOf, documentOf, textOf_settled]

theorem listOf_settled (reply : Reply) : listOf (settled reply) = listOf reply := by
  rw [listOf, listOf, textOf_settled]

end Client

namespace Discovery

open Client (Carries documentOf_served documentOf_settled listOf_settled settled)
open Wire (faithful_groupList faithful_versions)

variable {mode : Mode} {replies : List Reply} {status i : Nat}

/-! ## Passes that do not tell statuses apart -/

theorem Stage.step_settled (stage : Stage) (answer : Option Reply) :
    stage.step (answer.map settled) = stage.step answer := by
  have verdict (reply : Reply) : stage.verdict (settled reply) = stage.verdict reply := by
    cases stage <;> simp only [Stage.verdict, documentOf_settled, listOf_settled]
  unfold Stage.step
  cases Uri.parse stage.uri with
  | error fault => rfl
  | ok u => simp [Function.comp_def, verdict]

theorem walk_settled (due : List Stage) (replies : List Reply) :
    walk due (replies.map settled) = walk due replies := by
  induction due generalizing replies with
  | nil => rfl
  | cons stage rest ih =>
      simp only [walk, List.head?_map, Stage.step_settled, ← List.map_tail, ih]

theorem groupsTold_settled (mode : Mode) (replies : List Reply) :
    groupsTold mode (replies.map settled) = groupsTold mode replies := by
  rcases replies with _ | ⟨a, _ | ⟨o, _ | ⟨g, later⟩⟩⟩
  · rfl
  · rfl
  · rfl
  · simp only [groupsTold, List.map_cons, documentOf_settled]

theorem callsTold_settled (asked : List (Group × String)) (replies : List Reply) :
    callsTold asked (replies.map settled) = callsTold asked replies := by
  simp [callsTold, List.zip_map_right, List.filterMap_map, listOf_settled]

/-- The course of a pass is the same when every status that tells no failure is a success. -/
theorem course_pass_settled (mode : Mode) (replies : List Reply) :
    (pass mode).course (replies.map settled) = (pass mode).course replies := by
  have groups := groupsTold_settled mode replies
  have stages : due mode (replies.map settled) = due mode replies := by
    rw [due, due, groups]
  have catalog : catalogTold mode (replies.map settled) = catalogTold mode replies := by
    simp only [catalogTold, groups, ← List.map_drop, callsTold_settled]
  rw [course_pass, course_pass, stages, catalog, walk_settled]

/-! ## Replies to stages that pass -/

theorem Stage.exists_carries {stage : Stage} {reply : Reply} (accepts : stage.Accepts reply) :
    ∃ text, Carries reply text := by
  cases stage with
  | versions root =>
      obtain ⟨doc, text, carries, -⟩ := accepts
      exact ⟨text, carries⟩
  | groups =>
      obtain ⟨doc, text, carries, -⟩ := accepts
      exact ⟨text, carries⟩
  | listing group version =>
      obtain ⟨list, ⟨text, carries, -⟩, -⟩ := accepts
      exact ⟨text, carries⟩

/-- A response that comes to its end, with a status that tells no failure. -/
def Fine (answer : Option Reply) : Prop :=
  ∃ status frames, answer = some (.response ⟨status, frames, none⟩) ∧
    ¬(400 ≤ status ∧ status ≤ 599)

theorem not_fine_of_failure (tells : 400 ≤ status ∧ status ≤ 599) (frames : List Octets)
    (broken : Option (Http.Failure Error)) : ¬Fine (some (.response ⟨status, frames, broken⟩)) := by
  rintro ⟨other, _, same, fine⟩
  cases same
  exact fine tells

theorem Stage.Passes.fine {stage : Stage} {answer : Option Reply} (passes : stage.Passes answer) :
    Fine answer := by
  obtain ⟨u, reply, -, rfl, accepts⟩ := passes
  obtain ⟨text, status, frames, rfl, fine, -⟩ := Stage.exists_carries accepts
  exact ⟨status, frames, rfl, fine⟩

theorem Stage.Waits.not_passes {stage : Stage} {answer : Option Reply}
    (waits : stage.Waits answer) : ¬stage.Passes answer := by
  obtain ⟨u, -, rfl⟩ := waits
  rintro ⟨u', reply, -, answered, -⟩
  cases answered

theorem asked_pass (mode : Mode) (replies : List Reply) :
    ((pass mode).course replies).asked = (walk (due mode replies) replies).asked := by
  rw [course_pass, Dialogue.Course.asked_map]

theorem fine_of_completed {catalog : Catalog}
    (done : ((pass mode).course replies).ending = some (.ok catalog))
    (inside : i < ((pass mode).course replies).asked.length) : Fine replies[i]? := by
  have through := (ending_pass_eq_ok_iff.1 done).1
  rw [asked_pass, length_asked_walk through] at inside
  exact (ending_walk_eq_ok_iff.1 through i _ (List.getElem?_eq_getElem inside)).fine

/-- A pass that waits does so at its last request, and the earlier ones were answered. -/
theorem fine_of_waiting (waits : ((pass mode).course replies).ending = none)
    (inside : i < ((pass mode).course replies).asked.length) :
    Fine replies[i]? ∨ replies[i]? = none := by
  rw [course_pass, Dialogue.Course.ending_map_eq_none, ending_walk_eq_none_iff] at waits
  obtain ⟨j, first⟩ := waits
  have ⟨stage, there, ⟨u, made, unanswered⟩, before⟩ := first
  have length := length_asked_walk_of_firstAt (fun _ _ => Stage.Waits.not_passes) first there
  rw [asked_pass, length, unanswered, Stage.step, made] at inside
  rcases Nat.lt_succ_iff_lt_or_eq.1 inside with lt | rfl
  · have within : i < (due mode replies).length :=
      Nat.lt_trans lt (List.getElem?_eq_some_iff.1 there).1
    exact .inl (before i lt _ (List.getElem?_eq_getElem within)).fine
  · exact .inr unanswered

/-! ## Statuses that fail a pass -/

/-- A response with this status fails a pass, whichever request it answers and whatever its body. -/
def FailsPasses (mode : Mode) (status : Nat) : Prop :=
  ∀ replies i frames broken, i < ((pass mode).course replies).asked.length →
    replies[i]? = some (.response ⟨status, frames, broken⟩) →
      ∃ e, ((pass mode).course replies).ending = some (.error e)

theorem failsPasses_of_failure (tells : 400 ≤ status ∧ status ≤ 599) : FailsPasses mode status := by
  intro replies i frames broken inside answered
  have spoiled : ¬Fine replies[i]? := by
    rw [answered]
    exact not_fine_of_failure tells frames broken
  -- so the pass has not completed, and it does not wait for this reply
  rcases ends : ((pass mode).course replies).ending with _ | e | catalog
  · rcases fine_of_waiting ends inside with fine | missing
    · exact absurd fine spoiled
    · simp [missing] at answered
  · exact ⟨e, rfl⟩
  · exact absurd (fine_of_completed ends inside) spoiled

/-- Replies of a small cluster, with a status and nothing else where its one list is due. -/
def unlisted (status : Nat) : List Reply :=
  [Client.served (⟨["v1"]⟩ : Wire.Versions), Client.served (⟨[]⟩ : Wire.Versions),
    Client.served (⟨[]⟩ : Wire.GroupList), .response ⟨status, [], none⟩]

theorem groupsTold_unlisted (mode : Mode) (status : Nat) :
    groupsTold mode (unlisted status) = podGroups := by
  simp only [groupsTold, unlisted, documentOf_served faithful_versions,
    documentOf_served faithful_groupList]
  rfl

theorem lists_unlisted (fine : ¬(400 ≤ status ∧ status ≤ 599)) :
    Client.Lists (.response ⟨status, [], none⟩) .empty :=
  ⟨"", ⟨status, [], rfl, fine, rfl⟩, rfl⟩

theorem due_unlisted (mode : Mode) (status : Nat) :
    due mode (unlisted status) =
      [.versions .api, .versions .oapi, .groups, .listing (.legacy .api ["v1"]) "v1"] := by
  rw [due, groupsTold_unlisted]
  rfl

theorem walk_unlisted (mode : Mode) (fine : ¬(400 ≤ status ∧ status ≤ 599)) :
    (walk (due mode (unlisted status)) (unlisted status)).ending = some (.ok ()) := by
  have versions (doc : Wire.Versions) : Client.Tells (Client.served doc) doc :=
    Client.documentOf_eq_ok_iff.1 (documentOf_served faithful_versions doc)
  have list (doc : Wire.GroupList) : Client.Tells (Client.served doc) doc :=
    Client.documentOf_eq_ok_iff.1 (documentOf_served faithful_groupList doc)
  rw [due_unlisted, ending_walk_eq_ok_iff]
  intro i stage at_i
  rcases i with _ | _ | _ | _ | i
  · cases at_i
    exact ⟨_, _, parse_root .api, rfl, _, versions _⟩
  · cases at_i
    exact ⟨_, _, parse_root .oapi, rfl, _, versions _⟩
  · cases at_i
    exact ⟨_, _, parse_root .apis, rfl, _, list _⟩
  · cases at_i
    exact ⟨podRequest.uri, _, rfl, rfl, .empty, lists_unlisted fine, fun _ => rfl⟩
  · cases at_i

/-- Under every other status the pass completes, with nothing at the version of the one list. -/
theorem ending_unlisted (mode : Mode) (fine : ¬(400 ≤ status ∧ status ≤ 599)) :
    ((pass mode).course (unlisted status)).ending = some (.ok ⟨podGroups, .empty⟩) := by
  have list := Client.listOf_eq_ok_iff.2 (lists_unlisted fine)
  refine ending_pass_eq_ok_iff.2 ⟨walk_unlisted mode fine, ?_⟩
  rw [catalogTold, groupsTold_unlisted]
  simp [unlisted, ApiRoot.all, listings, podGroups, Group.versions, callsTold, list,
    Registry.ofCalls, Registry.Call.perform, Registry.addList, Registry.addEntries,
    Wire.ResourceList.empty]

theorem length_asked_unlisted (mode : Mode) (fine : ¬(400 ≤ status ∧ status ≤ 599)) :
    ((pass mode).course (unlisted status)).asked.length = 4 := by
  rw [asked_pass, length_asked_walk (walk_unlisted mode fine), due_unlisted]
  rfl

theorem failsPasses_iff : FailsPasses mode status ↔ 400 ≤ status ∧ status ≤ 599 := by
  constructor
  · intro fails
    by_contra fine
    have inside : 3 < ((pass mode).course (unlisted status)).asked.length := by
      simp [length_asked_unlisted mode fine]
    obtain ⟨e, ends⟩ := fails (unlisted status) 3 [] none inside rfl
    simp [ending_unlisted mode fine] at ends
  · exact failsPasses_of_failure

/-! ## What statuses decide -/

/-- A pass completes only by responses that come to their end and tell no failure, and a status that
tells one fails it. No other status does: for the pass they all are successes, whatever its filter
and whichever request they answer. -/
theorem statuses_of_pass (mode : Mode) (replies : List Reply) :
    let run := (pass mode).course replies
    (∀ catalog, run.ending = some (.ok catalog) → ∀ i < run.asked.length,
      ∃ status frames, replies[i]? = some (.response ⟨status, frames, none⟩) ∧
        ¬(400 ≤ status ∧ status ≤ 599)) ∧
    (pass mode).course (replies.map settled) = run ∧
    ∀ status, FailsPasses mode status ↔ 400 ≤ status ∧ status ≤ 599 := by
  refine ⟨fun catalog done i inside => ?_, course_pass_settled mode replies, fun status => ?_⟩
  · exact fine_of_completed done inside
  · exact failsPasses_iff

/-- A redirection in place of a list is taken for a list without entries: the pass completes, and
its registry is empty. -/
theorem completed_by_redirection :
    let run := (pass everything).course (unlisted 302)
    run.ending = some (.ok ⟨podGroups, .empty⟩) ∧ run.asked.length = 4 ∧
      (unlisted 302)[3]? = some (.response ⟨302, [], none⟩) ∧ ¬(200 ≤ 302 ∧ 302 ≤ 299) := by
  have fine : ¬(400 ≤ 302 ∧ 302 ≤ 599) := by decide
  exact ⟨ending_unlisted everything fine, length_asked_unlisted everything fine, rfl, by decide⟩

end Discovery
end ApiCatalog
