import ApiCatalog.Proofs.Session.Queue
import ApiCatalog.Proofs.Session.Trace

/-!
# What has become of every pass

A pass that began is lost, or it is the last one: then it still runs, or it has completed and its
catalog is kept.

- `Session.Lost`          : a pass that failed or was given up
- `Session.Passes`        : the passes of a history, with what the state after it says
- `Session.Passes.extend` : a step that begins no pass
- `Session.run_passes`    : the passes of every run
-/

namespace ApiCatalog
namespace Session

open Http (Request)

variable {ι : Type} {h new : List (Moment ι)} {s s' : Sharing ι} {c : ι}

/-! ## Lost passes -/

/-- A pass is lost when it failed, or when its caller gave up before it completed. -/
def Lost (h : List (Moment ι)) (c : ι) : Prop :=
  (∃ e, .ended c (.error e) ∈ h) ∨ .abandoned c ∈ h ∧ ∀ catalog, .ended c (.ok catalog) ∉ h

theorem Lost.append (lost : Lost h c) (going : ∀ catalog, .ended c (.ok catalog) ∉ new) :
    Lost (h ++ new) c := by
  rcases lost with ⟨e, failed⟩ | ⟨gone, open_still⟩
  · exact .inl ⟨e, List.mem_append_left _ failed⟩
  · refine .inr ⟨List.mem_append_left _ gone, fun catalog mem => ?_⟩
    rcases List.mem_append.1 mem with old | shown
    · exact open_still catalog old
    · exact going catalog shown

theorem Lost.of_append (lost : Lost (h ++ new) c) (no_failure : ∀ e, .ended c (.error e) ∉ new)
    (stays : .abandoned c ∉ new) : Lost h c := by
  rcases lost with ⟨e, failed⟩ | ⟨gone, open_still⟩
  · rcases List.mem_append.1 failed with old | shown
    · exact .inl ⟨e, old⟩
    · exact absurd shown (no_failure e)
  · rcases List.mem_append.1 gone with old | shown
    · exact .inr ⟨old, fun catalog mem => open_still catalog (List.mem_append_left _ mem)⟩
    · exact absurd shown stays

/-- A pass goes on, or it has completed. -/
def Prevails (h : List (Moment ι)) (s : Sharing ι) (c : ι) : Prop :=
  (∃ d, s.running = some (c, d)) ∨ ∃ catalog, .ended c (.ok catalog) ∈ h

/-! ## Passes and the state -/

variable [DecidableEq ι] {m : Mapper} {ask : ι → Mapper.Query} {d : Dialogue Catalog}

/-- The passes of a history, with what the state after it says about the last one. -/
structure Passes (m : Mapper) (h : List (Moment ι)) (s : Sharing ι) : Prop extends Trace m h where
  fate : ∀ c ∈ passes h, Lost h c ∨ (passes h).getLast? = some c ∧ Prevails h s c
  running : ∀ c d, s.running = some (c, d) →
    s.kept = none ∧ (passes h).getLast? = some c ∧ Along m h c d s.asked ∧
      ∀ outcome, .ended c outcome ∉ h
  idle : s.running = none → s.asked = false
  kept : (completions h).map Prod.snd = s.kept.toList
  unbegun : s.kept = none → ∀ c ∈ s.waiting, c ∉ passes h

namespace Passes

/-- While the cell is empty, no pass has completed. -/
theorem completions_eq_nil (p : Passes m h s) (empty : s.kept = none) : completions h = [] := by
  have none_kept := p.kept
  rw [empty, Option.toList_none, List.map_eq_nil_iff] at none_kept
  exact none_kept

theorem exists_completed (p : Passes m h s) {catalog : Catalog} (kept : s.kept = some catalog) :
    ∃ c, .ended c (.ok catalog) ∈ h := by
  have told := p.kept
  rw [kept] at told
  have mem : catalog ∈ (completions h).map Prod.snd := by simp [told]
  rcases List.mem_map.1 mem with ⟨⟨c, _⟩, there, rfl⟩
  exact ⟨c, mem_completions.1 there⟩

/-- A step that begins no pass. Only the last pass can complete or be lost by it, so the others stay
what they are; what the step makes of the last one is left to show. -/
theorem extend (p : Passes m h s) (t : Trace m (h ++ new)) (no_pass : passes new = [])
    (others : ∀ b, (passes h).getLast? ≠ some b → ∀ catalog, .ended b (.ok catalog) ∉ new)
    (last : ∀ c, (passes h).getLast? = some c → Lost h c ∨ Prevails h s c →
      Lost (h ++ new) c ∨ Prevails (h ++ new) s' c)
    (running : ∀ c d, s'.running = some (c, d) →
      s'.kept = none ∧ (passes h).getLast? = some c ∧ Along m (h ++ new) c d s'.asked ∧
        ∀ outcome, .ended c outcome ∉ h ++ new)
    (idle : s'.running = none → s'.asked = false)
    (kept : (completions h ++ completions new).map Prod.snd = s'.kept.toList)
    (unbegun : s'.kept = none → ∀ c ∈ s'.waiting, c ∉ passes h) : Passes m (h ++ new) s' := by
  have same := passes_extend (h := h) no_pass
  have told : (completions (h ++ new)).map Prod.snd = s'.kept.toList := by
    rw [completions_append, kept]
  refine { t with fate := ?_, running := ?_, idle := idle, kept := told, unbegun := ?_ }
  · intro c mem
    rw [same] at mem ⊢
    by_cases at_end : (passes h).getLast? = some c
    · have before : Lost h c ∨ Prevails h s c := by
        rcases p.fate c mem with lost | ⟨-, prevails⟩
        · exact .inl lost
        · exact .inr prevails
      rcases last c at_end before with lost | prevails
      · exact .inl lost
      · exact .inr ⟨at_end, prevails⟩
    · rcases p.fate c mem with lost | ⟨last, -⟩
      · exact .inl (lost.append (others c at_end))
      · exact absurd last at_end
  · rw [same]
    exact running
  · rw [same]
    exact unbegun

/-! ## Steps -/

/-- Moments that belong to no pass, and a cell that stays as it is. -/
theorem quiet (p : Passes m h s) (quiet : ∀ x ∈ new, x.ofPass = false) (cell : s'.cell = s.cell)
    (unbegun : s.kept = none → ∀ c ∈ s'.waiting, c ∉ passes h) : Passes m (h ++ new) s' := by
  rcases quiet_eq_nil quiet with ⟨no_pass, -, no_completion, none_of, no_end⟩
  have kept : s'.kept = s.kept := congrArg Prod.fst cell
  have running : s'.running = s.running := congrArg (·.2.1) cell
  have asked : s'.asked = s.asked := congrArg (·.2.2) cell
  apply p.extend (p.toTrace.quiet quiet) no_pass
  case others => exact fun b _ catalog => no_end b _
  case last =>
    intro c _ before
    rcases before with lost | ⟨d, runs⟩ | ⟨catalog, completed⟩
    · exact .inl (lost.append fun catalog => no_end c _)
    · exact .inr (.inl ⟨d, running.trans runs⟩)
    · exact .inr (.inr ⟨catalog, List.mem_append_left _ completed⟩)
  case running =>
    intro c d runs
    rw [running] at runs
    rcases p.running c d runs with ⟨empty, last, along, going⟩
    rw [kept, asked]
    refine ⟨empty, last, along.frame (none_of c).1 (none_of c).2, fun outcome mem => ?_⟩
    rcases List.mem_append.1 mem with old | shown
    · exact going outcome old
    · exact no_end c outcome shown
  case idle =>
    rw [running, asked]
    exact p.idle
  case kept =>
    rw [no_completion, List.append_nil, kept]
    exact p.kept
  case unbegun =>
    rw [kept]
    exact unbegun

theorem begin (p : Passes m h s) (empty : s.kept = none) (idle : s.running = none)
    (turn : c ∈ s.waiting) :
    Passes m (h ++ [.began c])
      { s with
        running := some (c, Discovery.pass m.mode), waiting := s.waiting.filter (· ≠ c) } := by
  have absent : c ∉ passes h := p.unbegun empty c turn
  have longer : passes (h ++ [.began c]) = passes h ++ [c] := passes_append h _
  have at_end : (passes h ++ [c]).getLast? = some c := by simp
  refine { p.toTrace.begin absent with
    fate := ?_, running := ?_, idle := ?_, kept := ?_, unbegun := ?_ }
  · intro b mem
    rw [longer] at mem ⊢
    rcases List.mem_append.1 mem with old | new
    · -- nothing runs and nothing has completed, so all the passes before are lost
      rcases p.fate b old with lost | ⟨-, ⟨d, runs⟩ | ⟨catalog, completed⟩⟩
      · exact .inl (lost.append (by simp))
      · rw [idle] at runs
        cases runs
      · have told := mem_completions.2 completed
        rw [p.completions_eq_nil empty] at told
        cases told
    · rw [List.mem_singleton.1 new]
      exact .inr ⟨at_end, .inl ⟨_, rfl⟩⟩
  · intro b d runs
    cases runs
    rw [longer, p.idle idle]
    have begun : Along m h c (Discovery.pass m.mode) false := .begun (p.silent c absent)
    refine ⟨empty, at_end, begun.frame rfl rfl, fun outcome mem => ?_⟩
    have old : .ended c outcome ∈ h := by simpa using mem
    exact absent (p.ended c outcome old).1
  · intro other
    cases other
  · rw [completions_append]
    exact (congrArg _ (List.append_nil _)).trans p.kept
  · intro _ b mem
    rcases List.mem_filter.1 mem with ⟨waits, other⟩
    rw [longer, List.mem_append, List.mem_singleton, not_or]
    exact ⟨p.unbegun empty b waits, by simpa using other⟩

theorem request (p : Passes m h s) (runs : s.running = some (c, d)) {request : Request}
    (waits : d.pending? = some request) (silent : s.asked = false) :
    Passes m (h ++ [.asked c request]) { s with asked := true } := by
  rcases p.running c d runs with ⟨empty, last, along, going⟩
  rw [silent] at along
  apply p.extend (p.toTrace.request last along going waits) rfl
  case others => simp
  case last =>
    intro b at_end _
    cases last.symm.trans at_end
    exact .inr (.inl ⟨d, runs⟩)
  case running =>
    intro b left runs'
    cases runs.symm.trans runs'
    refine ⟨empty, last, along.asked_one waits, fun outcome mem => ?_⟩
    exact going outcome (by simpa using mem)
  case idle =>
    intro idle
    cases runs.symm.trans idle
  case kept => exact (congrArg _ (List.append_nil _)).trans p.kept
  case unbegun => exact p.unbegun

theorem reply (p : Passes m h s) (runs : s.running = some (c, d)) (sent : s.asked = true)
    (r : Reply) :
    Passes m (h ++ [.replied c r]) { s with running := some (c, d.resume r), asked := false } := by
  rcases p.running c d runs with ⟨empty, last, along, going⟩
  rw [sent] at along
  apply p.extend (p.toTrace.reply last along going r) rfl
  case others => simp
  case last =>
    intro b at_end _
    cases last.symm.trans at_end
    exact .inr (.inl ⟨_, rfl⟩)
  case running =>
    intro b left runs'
    cases runs'
    refine ⟨empty, last, along.replied r, fun outcome mem => ?_⟩
    exact going outcome (by simpa using mem)
  case idle => exact fun _ => rfl
  case kept => exact (congrArg _ (List.append_nil _)).trans p.kept
  case unbegun => exact p.unbegun

theorem complete (p : Passes m h s) (runs : s.running = some (c, d)) {catalog : Catalog}
    (done : d.ending? = some (.ok catalog)) :
    Passes m (h ++ [.ended c (.ok catalog)])
      { s with kept := some catalog, running := none, waiting := s.waiting ++ [c] } := by
  rcases p.running c d runs with ⟨empty, last, along, going⟩
  have silent := along.not_asked done
  rw [silent] at along
  apply p.extend (p.toTrace.finish last along going done) rfl
  case others =>
    intro b other
    rw [last] at other
    simpa [eq_comm] using other
  case last =>
    intro b at_end _
    cases last.symm.trans at_end
    exact .inr (.inr ⟨catalog, by simp⟩)
  case running =>
    intro b left runs'
    cases runs'
  case idle => exact fun _ => silent
  case kept =>
    -- the cell was empty, so nothing has completed before
    rw [p.completions_eq_nil empty]
    rfl
  case unbegun =>
    intro other
    cases other

theorem fail (p : Passes m h s) (runs : s.running = some (c, d)) {e : Error}
    (failed : d.ending? = some (.error e)) :
    Passes m (h ++ [.ended c (.error e), .returned c (.error e)]) { s with running := none } := by
  rcases p.running c d runs with ⟨empty, last, along, going⟩
  have silent := along.not_asked failed
  rw [silent] at along
  -- the caller returns in the same step, which belongs to no pass any more
  have trace : Trace m (h ++ [.ended c (.error e), .returned c (.error e)]) := by
    rw [List.append_cons]
    exact (p.toTrace.finish last along going failed).quiet (by simp [Moment.ofPass])
  apply p.extend trace rfl
  case others => simp
  case last =>
    intro b at_end _
    cases last.symm.trans at_end
    exact .inl (.inl ⟨e, by simp⟩)
  case running =>
    intro b left runs'
    cases runs'
  case idle => exact fun _ => silent
  case kept => exact (congrArg _ (List.append_nil _)).trans p.kept
  case unbegun => exact p.unbegun

theorem drop (p : Passes m h s) (runs : s.running = some (c, d)) :
    Passes m (h ++ [.abandoned c]) { s with running := none, asked := false } := by
  rcases p.running c d runs with ⟨empty, last, along, going⟩
  apply p.extend (p.toTrace.quiet (by simp [Moment.ofPass])) rfl
  case others => simp
  case last =>
    intro b at_end _
    cases last.symm.trans at_end
    -- the pass was still going on, so it is given up before it completed
    exact .inl (.inr ⟨by simp, fun catalog mem => going _ (by simpa using mem)⟩)
  case running =>
    intro b left runs'
    cases runs'
  case idle => exact fun _ => rfl
  case kept => exact (congrArg _ (List.append_nil _)).trans p.kept
  case unbegun => exact p.unbegun

/-- What a step does to the passes. -/
theorem step (p : Passes m h s) (queue : Queue h s) (step : Step m ask s new s')
    (unlike : ∀ c, .arrived c ∈ new → c ∉ calls h) : Passes m (h ++ new) s' := by
  cases step with
  | arrive c =>
      refine p.quiet (by simp [Moment.ofPass]) rfl fun empty b waits => ?_
      rcases List.mem_append.1 waits with old | new
      · exact p.unbegun empty b old
      · -- a call that arrives has not been heard of before
        rw [List.mem_singleton.1 new]
        intro began
        exact unlike c (by simp) (queue.known _ (mem_passes.1 began))
  | begin empty idle turn => exact p.begin empty idle turn
  | ask runs waits silent => exact p.request runs waits silent
  | reply runs sent r => exact p.reply runs sent r
  | complete runs done => exact p.complete runs done
  | fail runs failed => exact p.fail runs failed
  | answer kept turn =>
      -- answers are given from a full cell, and with it no pass begins any more
      refine p.quiet (by simp [Moment.ofPass]) rfl fun empty => ?_
      rw [kept] at empty
      cases empty
  | leave there =>
      refine p.quiet (by simp [Moment.ofPass]) rfl fun empty b waits => ?_
      exact p.unbegun empty b (List.mem_filter.1 waits).1
  | drop runs => exact p.drop runs

end Passes

theorem run_passes (run : Run m ask h s) : Passes m h s := by
  induction run with
  | fresh =>
      refine { Trace.nil with
        fate := by simp [passes], running := ?_, idle := fun _ => rfl, kept := rfl, unbegun := ?_ }
      · intro c d runs
        cases runs
      · intro _ c waits
        cases waits
  | step before step unlike ih => exact ih.step (run_queue before) step unlike

end Session
end ApiCatalog
