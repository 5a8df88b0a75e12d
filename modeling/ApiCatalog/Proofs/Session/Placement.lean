import ApiCatalog.Proofs.Discovery.Due
import ApiCatalog.Proofs.Mapper.Advertised
import ApiCatalog.Proofs.Session.Realize

/-!
# Where endpoints lie

In every state of a session that keeps a catalog, an endpoint belongs to one of the groups that were
kept, and its path lies directly below a list that was asked for.

- `Discovery.path_eq`           : the path of an endpoint, by the path of its group
- `Discovery.home_of_mem`       : the group and the list that an endpoint comes from
- `Session.Passes.exists_log`   : the exchanges of the pass whose catalog is kept
- `Session.run_placement`       : the endpoints of every state
-/

namespace ApiCatalog

open Http (Request)

namespace Discovery

/-! ## Endpoints of a pass -/

/-- The path of an endpoint goes on from the path of its group. -/
theorem path_eq {g : Group} {e : Endpoint} (root : g.root = e.key.root)
    (name : g.name = e.key.group) :
    e.path = "/" ++ g.pathFor e.key.version ++ "/" ++ e.key.name := by
  unfold Endpoint.path Key.path Group.pathFor Group.path
  rw [root, name]
  cases e.key.group <;> simp [String.append_assoc]

section Completed

variable {mode : Mode} {log : List Exchange} {catalog : Catalog} {e : Endpoint}
  (done : (pass mode).result? log = some (.ok catalog)) (mem : e ∈ catalog.registry.toList)

include done mem

theorem version_ne_of_mem : e.key.version ≠ "" := by
  rcases collected_of_mem done mem with ⟨entry, ⟨g, -, -, -, -, doc, served, there⟩, -⟩
  exact version_ne_of_served done served there

theorem slash_not_mem_name : '/' ∉ e.key.name.toList := by
  rcases collected_of_mem done mem with ⟨entry, -, base⟩
  rw [← base]
  exact Advert.slash_not_mem_baseName entry.name

/-- The group that an endpoint belongs to, and the exchange that brought its list. -/
theorem home_of_mem :
    ∃ g ∈ catalog.groups, g.root = e.key.root ∧ g.name = e.key.group ∧
      e.key.version ∈ g.versions ∧
      ∃ request reply, Request.get? ("/" ++ g.pathFor e.key.version) = .ok request ∧
        (request, reply) ∈ log := by
  rcases collected_of_mem done mem with
    ⟨entry, ⟨g, kept, root, name, version, doc, ⟨request, reply, pair, made, -⟩, -⟩, -⟩
  rw [discoveryUri_pathFor] at made
  have exchanged : (request, reply) ∈ listed log := (List.of_mem_zip pair).2
  exact ⟨g, kept, root, name, version, request, reply, made, List.mem_of_mem_drop exchanged⟩

theorem wants_of_mem {name : String} (named : e.key.group = some name) :
    mode.wants name = true := by
  rcases home_of_mem done mem with ⟨g, kept, -, same, -⟩
  rcases (result?_pass_ok.1 done).1 with ⟨_, _, _, _, api, oapi, list, -, -, -, -, groups⟩
  rw [groups] at kept
  exact wants_of_mem_kept kept (same.trans named)

end Completed
end Discovery

/-! ## Every state -/

namespace Session

open Discovery

variable {ι : Type} [DecidableEq ι] {m : Mapper} {ask : ι → Mapper.Query} {h : List (Moment ι)}
  {s : Sharing ι} {catalog : Catalog}

/-- A catalog that is kept is that of a pass, with the exchanges that the history shows. -/
theorem Passes.exists_log (p : Passes m h s) (kept : s.kept = some catalog) :
    ∃ c log, (pass m.mode).result? log = some (.ok catalog) ∧
      ∀ request reply, (request, reply) ∈ log → .asked c request ∈ h := by
  rcases p.exists_completed kept with ⟨c, completed⟩
  rcases p.ended c _ completed with ⟨-, d, ⟨log, follows, -, requests, -⟩, ends⟩
  refine ⟨c, log, by simp [Dialogue.result?, follows, ends], ?_⟩
  intro request reply mem
  apply mem_requestsOf.1
  rw [requests]
  simpa using ⟨reply, mem⟩

/-- Endpoints are where their groups are. In every state with a catalog, no two endpoints have the
same key; an endpoint has a group exactly if it is below `apis`, a version that is not empty and a
name without a slash; its group is kept, wanted if it has a name, and serves its version; and its
path lies directly below that of a list that was asked for. -/
theorem run_placement (run : Run m ask h s) (kept : s.kept = some catalog) :
    catalog.registry.toList.Pairwise (·.key ≠ ·.key) ∧
    ∀ e ∈ catalog.registry.toList,
      (e.key.group = none ↔ e.key.root = .api ∨ e.key.root = .oapi) ∧
      e.key.version ≠ "" ∧
      '/' ∉ e.key.name.toList ∧
      (∀ d ∈ catalog.registry.toList, d.key = e.key → d = e) ∧
      (∀ name, e.key.group = some name → m.mode.wants name = true) ∧
      ∃ g ∈ catalog.groups, g.root = e.key.root ∧ g.name = e.key.group ∧
        e.key.version ∈ g.versions ∧
        e.path = "/" ++ g.pathFor e.key.version ++ "/" ++ e.key.name ∧
        ∃ c request, Request.get? ("/" ++ g.pathFor e.key.version) = .ok request ∧
          .asked c request ∈ h := by
  rcases (run_passes run).exists_log kept with ⟨c, log, done, asked⟩
  refine ⟨catalog.registry.pairwise_key_ne, fun e mem => ?_⟩
  rcases home_of_mem done mem with ⟨g, in_groups, root, name, version, request, reply, made, there⟩
  refine ⟨group_eq_none_iff done mem, version_ne_of_mem done mem, slash_not_mem_name done mem, ?_,
    fun _ named => wants_of_mem done mem named, ?_⟩
  · intro d other same
    -- both are what the registry holds at this key
    have found := Registry.get?_eq_some_iff.2 ⟨other, same⟩
    rw [Registry.get?_eq_some_iff.2 ⟨mem, rfl⟩] at found
    exact (Option.some.inj found).symm
  · exact ⟨g, in_groups, root, name, version, path_eq root name, c, request, made,
      asked request reply there⟩

/-- Filtered for them, deployments lie below the list of their group, and no endpoint belongs to the
group of jobs. -/
theorem placement_jobless :
    let m : Mapper := ⟨.allow ["apps"], Preferred.default⟩
    ∃ catalog h s, Run m (fun _ : Unit => .size) h s ∧ s.kept = some catalog ∧
      (∃ e ∈ catalog.registry.toList, e.path = "/apis/apps/v1/deployments" ∧
        ∃ c request, Request.get? "/apis/apps/v1" = .ok request ∧ .asked c request ∈ h) ∧
      ∀ e ∈ catalog.registry.toList, e.key.group ≠ some "batch" := by
  intro m
  rcases @result?_joblessLog m.mode (by decide) (by decide) with ⟨registry, done⟩
  have first : Run m (fun _ : Unit => .size) [.arrived ()] ⟨⟨none, none, [()]⟩, false⟩ :=
    .step .fresh (.arrive ()) (by simp [calls])
  have run := first.completes done
  have placed := (run_placement run rfl).2
  refine ⟨_, _, _, run, rfl, ?_, ?_⟩
  · have collected : Collected joblessGroups joblessLog deploymentsKey :=
      ⟨_, advertised_deployments, by decide⟩
    rcases (collected_iff done).1 collected with ⟨e, there⟩
    rcases Registry.get?_eq_some_iff.1 there with ⟨mem, key⟩
    rcases placed e mem with ⟨-, -, -, -, -, g, -, root, name, -, path, c, request, made, asked⟩
    rw [key] at root name path made
    have list : g.pathFor deploymentsKey.version = "apis/apps/v1" := by
      rw [Group.pathFor, Group.path, root, name]
      decide
    rw [list] at path made
    exact ⟨e, mem, path, c, request, made, asked⟩
  · intro e mem batch
    have wanted := (placed e mem).2.2.2.2.1 "batch" batch
    revert wanted
    decide

end Session
end ApiCatalog
