import ApiCatalog.Proofs.Session.OnceOnly

/-!
# Failures stay with their callers

The error of a pass goes to the caller that ran it and to nobody else, no caller runs a second pass,
and a pass that is lost leaves nothing behind.

- `Session.run_returned`   : a failed pass is what its caller returns
- `Session.Step.cell_of_lost` : a step that loses a pass empties the cell
- `Session.run_failures_unshared` : the account of a run, for its failures
-/

namespace ApiCatalog
namespace Session

open Discovery (rootRequest pending?_pass)
open Http (Request)

variable {ι : Type} [DecidableEq ι] {m : Mapper} {ask : ι → Mapper.Query}
  {h new : List (Moment ι)} {s s' : Sharing ι}

/-! ## Attribution -/

/-- Only those in line return. -/
theorem Step.mem_line_of_returned (step : Step m ask s new s') {c : ι}
    {result : Except Error Mapper.Answer} (mem : .returned c result ∈ new) : c ∈ s.line := by
  rcases step.caller_mem _ mem with there | arrives
  · exact there
  · cases step <;> simp [calls] at mem arrives

/-- A pass that fails tells its caller at once. -/
theorem Step.eq_of_failed (step : Step m ask s new s') {c : ι} {e : Error}
    (mem : .ended c (.error e) ∈ new) : new = [.ended c (.error e), .returned c (.error e)] := by
  cases step with
  | fail runs failed =>
      simp at mem
      rcases mem with ⟨rfl, rfl⟩
      rfl
  | _ => simp at mem

/-- The caller of a pass that failed has returned its error, and nothing else. -/
theorem run_returned (run : Run m ask h s) {c : ι} {e : Error} (failed : .ended c (.error e) ∈ h) :
    ∀ result, .returned c result ∈ h ↔ result = .error e := by
  induction run with
  | fresh => cases failed
  | @step h new s s' before step unlike ih =>
      have open_still (there : c ∈ s.line) (result : Except Error Mapper.Answer) :
          .returned c result ∉ h := by
        intro returned
        exact ((run_queue before).present c there).2 (mem_through.2 (.inl ⟨result, returned⟩))
      intro result
      rw [List.mem_append]
      rcases List.mem_append.1 failed with old | shown
      · -- whoever has returned is out of line, and does not return again
        have silent : .returned c result ∉ new := fun later =>
          open_still (step.mem_line_of_returned later) _ ((ih old _).2 rfl)
        rw [ih old result]
        exact or_iff_left silent
      · have whole := step.eq_of_failed shown
        have told : .returned c (.error e) ∈ new := by simp [whole]
        have here : c ∈ s.line := step.mem_line_of_returned told
        rw [whole]
        constructor
        · intro returned
          rcases returned with earlier | now
          · exact absurd earlier (open_still here result)
          · simpa using now
        · intro same
          exact .inr (by simp [same])

/-! ## What a lost pass leaves behind -/

/-- Between passes, and before one has completed, the mapper is as it was made. -/
theorem Passes.cell_eq_fresh (p : Passes m h s) (idle : s.running = none)
    (open_still : completions h = []) : s.cell = Sharing.fresh.cell := by
  have told := p.kept
  rw [open_still, List.map_nil] at told
  have empty : s.kept = none := by
    cases kept : s.kept with
    | none => rfl
    | some catalog => simp [kept] at told
  rw [Sharing.cell, empty, idle, p.idle idle]
  rfl

/-- A pass begins with the mapper as it was made. -/
theorem Step.cell_of_began (step : Step m ask s new s') (p : Passes m h s) {c : ι}
    (mem : c ∈ passes new) :
    s.cell = Sharing.fresh.cell ∧ s'.cell = (none, some (c, Discovery.pass m.mode), false) := by
  cases step with
  | begin empty idle turn =>
      have same : c = _ := List.mem_singleton.1 mem
      rw [same]
      refine ⟨p.cell_eq_fresh idle (p.completions_eq_nil empty), ?_⟩
      rw [Sharing.cell]
      dsimp only
      rw [empty, p.idle idle]
  | _ => simp [passes] at mem

/-- A step that loses a pass leaves the mapper as it was made. -/
theorem Step.cell_of_lost (step : Step m ask s new s') (once : s.line.Nodup) (p : Passes m h s)
    (after : Passes m (h ++ new) s') {c : ι} (began : c ∈ passes h) (going : ¬Lost h c)
    (lost : Lost (h ++ new) c) : s'.cell = Sharing.fresh.cell := by
  rcases p.fate c began with before | ⟨-, ⟨d, runs⟩ | ⟨catalog, completed⟩⟩
  · exact absurd before going
  · rcases p.running c d runs with ⟨empty, -, along, -⟩
    -- only a failure or its caller's leaving can lose a pass that runs
    cases step with
    | arrive b => exact absurd (lost.of_append (by simp) (by simp)) going
    | begin _ idle =>
        rw [runs] at idle
        cases idle
    | ask => exact absurd (lost.of_append (by simp) (by simp)) going
    | reply => exact absurd (lost.of_append (by simp) (by simp)) going
    | complete runs' done =>
        cases runs.symm.trans runs'
        exact absurd lost (after.not_lost (List.mem_append_right _ (List.mem_singleton.2 rfl)))
    | fail runs' failed =>
        cases runs.symm.trans runs'
        rw [Sharing.cell]
        dsimp only
        rw [empty, along.not_asked failed]
        rfl
    | answer kept =>
        rw [empty] at kept
        cases kept
    | leave there =>
        have other := ne_of_runs once runs there
        exact absurd (lost.of_append (by simp) (by simp [other])) going
    | drop =>
        rw [Sharing.cell]
        dsimp only
        rw [empty]
        rfl
  · exact absurd lost (after.not_lost (List.mem_append_left _ completed))

/-! ## Counting passes -/

/-- A pass asks for `api` before anything else. -/
theorem Passes.head?_requestsOf (p : Passes m h s) {c : ι} {request : Request}
    (first : (requestsOf h c).head? = some request) : request = rootRequest .api := by
  by_cases began : c ∈ passes h
  · rcases p.along c began with ⟨d, asked, log, follows, -, requests, waits⟩
    -- before the first exchange the request can only be under way
    cases log with
    | nil =>
        cases follows
        cases asked with
        | false => simp [requests] at first
        | true => simpa [requests, pending?_pass, eq_comm] using first
    | cons x rest =>
        unfold Dialogue.follow at follows
        split at follows
        · next waits =>
            rw [pending?_pass] at waits
            rw [requests] at first
            cases first
            exact (Option.some.inj waits).symm
        · cases follows
  · rw [(p.silent c began).1] at first
    cases first

theorem Passes.eq_nil_of_completed (p : Passes m h s) {c : ι} {rest : List ι} {catalog : Catalog}
    (began : passes h = c :: rest) (completed : .ended c (.ok catalog) ∈ h) : rest = [] := by
  -- the pass that completed is the last one, so none can come behind the first
  have last := (p.of_completed completed).2
  have distinct := p.distinct
  rw [began] at last distinct
  cases rest with
  | nil => rfl
  | cons b rest =>
      rw [List.getLast?_cons_cons] at last
      exact absurd (List.mem_of_getLast? last) (List.nodup_cons.1 distinct).1

/-! ## The run as a whole -/

/-- Failures are neither shared nor repeated. Of a mapper made by its settings, every call runs one
pass at most. The error of a failed pass is what its own call returns, and all that it returns; any
other error that a call returns is that its endpoint is missing. A pass begins with the mapper as it
was made, and one that is lost leaves it so: it starts at `api`, and ends as a fresh mapper would
end with the same replies. There are no more passes than calls, and no more than one if the first
completes. -/
theorem run_failures_unshared {settings : List Mapper.Setting}
    (made : Mapper.default.applyAll settings = .ok m) (run : Run m ask h s) :
    (passes h).Nodup ∧
    (∀ c e, .ended c (.error e) ∈ h → ∀ result, .returned c result ∈ h ↔ result = .error e) ∧
    (∀ c e, .returned c (.error e) ∈ h → .ended c (.error e) ∈ h ∨
      ∃ version kind, ask c = .endpointFor version kind ∧ e = .missingEndpoint kind version) ∧
    (∀ new s', Step m ask s new s' → Run m ask (h ++ new) s' →
      (∀ c ∈ passes new, s.cell = Sharing.fresh.cell ∧
        s'.cell = (none, some (c, Discovery.pass m.mode), false)) ∧
      ∀ c ∈ passes h, ¬Lost h c → Lost (h ++ new) c → s'.cell = Sharing.fresh.cell) ∧
    (∀ c request, (requestsOf h c).head? = some request → request = rootRequest .api) ∧
    (∀ c outcome, .ended c outcome ∈ h →
      ((repliesOf h c).foldl Dialogue.resume (Discovery.pass m.mode)).ending? = some outcome) ∧
    (passes h).length ≤ (calls h).length ∧
    ∀ c rest catalog, passes h = c :: rest → .ended c (.ok catalog) ∈ h → rest = [] := by
  have queue := run_queue run
  have p := run_passes run
  refine ⟨p.distinct, fun c e failed => run_returned run failed, ?_, ?_, ?_, ?_, ?_, ?_⟩
  · intro c e returned
    rcases List.append_of_mem returned with ⟨before, after, eq⟩
    -- an error that is returned is that of the own pass, or an answer that is an error
    rcases run_timely run before _ after eq with ⟨e', same, failed⟩ | ⟨d, catalog, -, answered⟩
    · cases same
      refine .inl ?_
      rw [eq]
      exact List.mem_append_left _ failed
    · have complete := Mapper.complete_applyAll Mapper.complete_default made
      have told : m.answer catalog (ask c) = .error e := by
        rw [Mapper.answer_eq]
        exact answered.symm
      exact .inr (Mapper.answer_error complete told)
  · intro new s' step next
    refine ⟨fun c began => step.cell_of_began p began, fun c began going lost => ?_⟩
    exact step.cell_of_lost queue.once p (run_passes next) began going lost
  · exact fun c request first => p.head?_requestsOf first
  · exact fun c outcome ended => p.outcome ended
  · exact queue.length_passes_le p.distinct
  · exact fun c rest catalog began completed => p.eq_nil_of_completed began completed

/-- The call whose pass is refused returns that, and two calls make two passes. -/
theorem failures_unshared_retried :
    ∃ catalog s, Run .default (fun _ : Bool => .size) (retried catalog) s ∧
      .returned false (.error (.service "down")) ∈ retried catalog ∧
      (passes (retried catalog)).length ≤ 2 := by
  rcases run_retried with ⟨catalog, run⟩
  have made : Mapper.default.applyAll [] = .ok .default := rfl
  have ⟨_, returned, _, _, _, _, few, _⟩ := run_failures_unshared made run
  have failed : .ended false (.error (.service "down")) ∈ retried catalog := by simp [retried]
  exact ⟨catalog, _, run, (returned false _ failed _).2 rfl, few⟩

end Session
end ApiCatalog
