import ApiCatalog.Proofs.Discovery.Due
import ApiCatalog.Proofs.Json.Blank

/-!
# The outcome of a discovery pass

A pass is all or nothing. It yields a catalog when every stage passes, and otherwise the error of
the first stage that fails; what was received before is lost.

- `Discovery.lists_of_passes`  : the lists of a pass that completes, in the order of the requests
- `Discovery.fails_of_blank`   : no root may answer with a blank text
- `Discovery.naming_of_fails`  : the names that a pass refuses
- `Discovery.outcome_of_pass`  : success and failure of a pass, by its stages
-/

namespace ApiCatalog
namespace Discovery

open Client (Carries Lists Spoils)

variable {mode : Mode} {replies : List Reply}

/-! ## Lists -/

/-- When every listing has a reply that brings a list, these lists are added in turn. -/
theorem callsTold_eq_zipWith {asked : List (Group × String)}
    (all : ∀ (i : Nat) (l : Group × String), asked[i]? = some l →
      ∃ reply list, replies[i]? = some reply ∧ Lists reply list) :
    ∃ lists, List.Forall₂ Lists (replies.take asked.length) lists ∧
      lists.length = asked.length ∧
      callsTold asked replies = List.zipWith (fun l list => .list l.1 l.2 list) asked lists := by
  induction asked generalizing replies with
  | nil => exact ⟨[], by simp, rfl, by simp [callsTold]⟩
  | cons l rest ih =>
      rcases all 0 l rfl with ⟨reply, list, at_0, told⟩
      rcases replies with _ | ⟨first, later⟩
      · cases at_0
      · cases at_0
        rcases ih fun i l' at_i => by simpa using all (i + 1) l' at_i with
          ⟨lists, received, long, calls⟩
        refine ⟨list :: lists, ?_, by simp [long], ?_⟩
        · exact .cons told received
        · rw [callsTold_cons (Client.listOf_eq_ok_iff.2 told), calls]
          rfl

/-- The registry of a pass in which every stage has passed: the lists that were received are added
in the order of the requests. -/
theorem lists_of_passes
    (passes : ∀ (i : Nat) (stage : Stage), (due mode replies)[i]? = some stage →
      stage.Passes replies[i]?) :
    let asked := listings (groupsTold mode replies)
    ∃ lists, List.Forall₂ Lists ((replies.drop ApiRoot.all.length).take asked.length) lists ∧
      lists.length = asked.length ∧
      (catalogTold mode replies).registry =
        .ofCalls (List.zipWith (fun l list => .list l.1 l.2 list) asked lists) := by
  intro asked
  -- the listings stand behind the three roots, and so do their replies
  have brought : ∀ (i : Nat) (l : Group × String), asked[i]? = some l →
      ∃ reply list, (replies.drop ApiRoot.all.length)[i]? = some reply ∧ Lists reply list := by
    intro i l at_i
    have stage : (due mode replies)[i + 3]? = some (.ofListing l) := by
      simp [due, asked, at_i]
    rcases passes (i + 3) _ stage with ⟨-, reply, -, there, list, told, -⟩
    exact ⟨reply, list, by simpa [ApiRoot.all, Nat.add_comm] using there, told⟩
  rcases callsTold_eq_zipWith brought with ⟨lists, received, long, calls⟩
  exact ⟨lists, received, long, congrArg Registry.ofCalls calls⟩

/-! ## Blank roots -/

/-- A root does not pass with a blank text. -/
theorem not_passes_of_blank {i : Nat} (root : i < 3) {stage : Stage}
    (there : (due mode replies)[i]? = some stage) {reply : Reply} {text : String}
    (carries : Carries reply text) (blank : Text.isBlankText text = true) :
    ¬stage.Passes (some reply) := by
  rintro ⟨-, other, -, same, accepts⟩
  cases same
  rcases Wire.Versions.decode_blank blank with ⟨_, no_versions⟩
  rcases Wire.GroupList.decode_blank blank with ⟨_, no_groups⟩
  rcases i with _ | _ | _ | i
  · cases there
    rcases accepts with ⟨doc, tells⟩
    exact Client.not_tells carries no_versions doc tells
  · cases there
    rcases accepts with ⟨doc, tells⟩
    exact Client.not_tells carries no_versions doc tells
  · cases there
    rcases accepts with ⟨doc, tells⟩
    exact Client.not_tells carries no_groups doc tells
  · omega

/-- A pass fails, with this root or before it, when a root answers with a blank text. -/
theorem fails_of_blank {i : Nat} (root : i < 3) {reply : Reply} (there : replies[i]? = some reply)
    {text : String} (carries : Carries reply text) (blank : Text.isBlankText text = true) :
    ∃ e, (walk (due mode replies) replies).ending = some (.error e) := by
  have reached : i < (due mode replies).length := by
    simp only [due, List.length_cons]
    omega
  have stage_i : (due mode replies)[i]? = some (due mode replies)[i] :=
    List.getElem?_eq_getElem reached
  have stops : ¬(due mode replies)[i].Passes replies[i]? := by
    rw [there]
    exact not_passes_of_blank root stage_i carries blank
  rcases ends : (walk (due mode replies) replies).ending with _ | (e | x)
  · -- a stage that waits comes behind the replies, so the blank root has passed
    rcases ending_walk_eq_none_iff.1 ends with ⟨k, stage, -, ⟨u, -, missing⟩, before⟩
    have later : i < k := by
      by_contra early
      rw [List.getElem?_eq_none_iff] at missing
      have present := (List.getElem?_eq_some_iff.1 there).1
      omega
    exact absurd (before i later _ stage_i) stops
  · exact ⟨e, rfl⟩
  · exact absurd (ending_walk_eq_ok_iff.1 ends i _ stage_i) stops

/-! ## Refused names -/

/-- A stage refuses no name but an empty version; another one comes from below. -/
theorem naming_of_fails {stage : Stage} {answer : Option Reply} {fault : NamingFault}
    (h : stage.Fails (.naming fault) answer) :
    fault = .emptyVersion ∨ ∃ f, answer = some (.failed f) ∧ f.outer = .own (.naming fault) := by
  rcases h with ⟨_, -, absurd⟩ | ⟨-, reply, -, rfl, refused⟩
  · cases absurd
  · have told : Spoils reply (.naming fault) ∨ fault = .emptyVersion := by
      cases stage with
      | versions root =>
          rcases refused with spoils | ⟨_, _, -, -, absurd⟩
          · exact .inl spoils
          · cases absurd
      | groups =>
          rcases refused with spoils | ⟨_, _, -, -, absurd⟩
          · exact .inl spoils
          · cases absurd
      | listing group version =>
          rcases refused with spoils | ⟨_, _, -, -, -, absurd⟩ | ⟨list, -, -, -, same⟩
          · exact .inl spoils
          · cases absurd
          · cases same
            exact .inr rfl
    rcases told with spoils | empty
    · rcases Client.naming_of_spoils spoils with ⟨f, rfl, outermost⟩
      exact .inr ⟨f, rfl, outermost⟩
    · exact .inl empty

/-- A pass completes when every stage passes, and then the catalog is what the replies tell: the
groups of the legacy roots and the wanted ones, and the lists in the order of the requests. It fails
with the error of the first stage that fails, and without a reply it waits; so it ends against every
service that replies so. A blank root is a failure. The only name that a pass refuses of itself is
an empty version; any other refusal is an error of the transport, handed through as it came. -/
theorem outcome_of_pass (mode : Mode) (replies : List Reply) :
    let ending := ((pass mode).course replies).ending
    let stages := due mode replies
    (∀ (σ : Type) (serve : Dialogue.Service σ) (s : σ),
      ((pass mode).heard serve s).map Prod.snd = replies →
        ((pass mode).against serve s).outcome.ended? = ending) ∧
    (∀ catalog, ending = some (.ok catalog) ↔
      (∀ (i : Nat) (stage : Stage), stages[i]? = some stage → stage.Passes replies[i]?) ∧
        catalog = catalogTold mode replies) ∧
    (∀ e, ending = some (.error e) ↔ ∃ i, FirstAt (Stage.Fails e) stages replies i) ∧
    (ending = none ↔ ∃ i, FirstAt Stage.Waits stages replies i) ∧
    (∀ catalog, ending = some (.ok catalog) →
      Roots mode replies catalog.groups ∧
      ∃ lists, lists.length = (listings catalog.groups).length ∧
        List.Forall₂ Lists
          ((replies.drop ApiRoot.all.length).take (listings catalog.groups).length) lists ∧
        catalog.registry =
          .ofCalls (List.zipWith (fun l list => .list l.1 l.2 list) (listings catalog.groups)
            lists)) ∧
    (∀ i < ApiRoot.all.length, ∀ reply text, replies[i]? = some reply → Carries reply text →
      Text.isBlankText text = true → ∃ e, ending = some (.error e)) ∧
    ∀ fault, ending = some (.error (.naming fault)) →
      fault = .emptyVersion ∨ ∃ f, .failed f ∈ replies ∧ f.outer = .own (.naming fault) := by
  intro ending stages
  have walked : ending =
      ((walk stages replies).map fun _ => catalogTold mode replies).ending :=
    congrArg Dialogue.Course.ending (course_pass mode replies)
  have fails (e : Error) :
      ending = some (.error e) ↔ ∃ i, FirstAt (Stage.Fails e) stages replies i := by
    rw [walked, Dialogue.Course.ending_map_eq_error, ending_walk_eq_error_iff]
  have completes (catalog : Catalog) : ending = some (.ok catalog) ↔
      (∀ (i : Nat) (stage : Stage), stages[i]? = some stage → stage.Passes replies[i]?) ∧
        catalog = catalogTold mode replies := by
    rw [← ending_walk_eq_ok_iff]
    exact ending_pass_eq_ok_iff
  refine ⟨?_, completes, fails, ?_, ?_, ?_, ?_⟩
  · rintro σ serve s rfl
    exact (Dialogue.course_heard serve (pass mode) s).1.symm
  · rw [walked, Dialogue.Course.ending_map_eq_none, ending_walk_eq_none_iff]
  · intro catalog completed
    rcases (completes catalog).1 completed with ⟨passes, rfl⟩
    rcases lists_of_passes passes with ⟨lists, received, long, registry⟩
    exact ⟨roots_of_passes passes, lists, long, received, registry⟩
  · intro i root reply text there carries blank
    rcases fails_of_blank root there carries blank with ⟨e, ends⟩
    exact ⟨e, (fails e).2 (ending_walk_eq_error_iff.1 ends)⟩
  · intro fault failed
    rcases (fails _).1 failed with ⟨i, stage, -, refused, -⟩
    rcases naming_of_fails refused with empty | ⟨f, there, outermost⟩
    · exact .inl empty
    · exact .inr ⟨f, List.mem_of_getElem? there, outermost⟩

end Discovery
end ApiCatalog
