import Mathlib.Data.List.Nodup
import Mathlib.Data.List.Perm.Subperm
import ApiCatalog.Proofs.Session.Schedule

/-!
# Who is in line

Callers come into line when they arrive and leave it when they are through. Both can be read off the
history.

- `Session.Queue`     : everybody in line has called and is not through
- `Session.run_queue` : this holds after every run
-/

namespace ApiCatalog
namespace Session

variable {ι : Type}

/-! ## The line -/

theorem mem_line_iff {t : Session ι} {c : ι} :
    c ∈ t.line ↔ (∃ d, t.running = some (c, d)) ∨ c ∈ t.waiting := by
  unfold line
  cases t.running with
  | none => simp
  | some runner => simp [Prod.ext_iff, eq_comm]

theorem line_of_idle {t : Session ι} (idle : t.running = none) : t.line = t.waiting := by
  unfold line
  rw [idle]
  rfl

theorem line_of_runs {t : Session ι} {c : ι} {d : Dialogue Catalog}
    (runs : t.running = some (c, d)) : t.line = c :: t.waiting := by
  unfold line
  rw [runs]
  rfl

/-- Whoever runs a pass does not wait at the same time. -/
theorem ne_of_runs {t : Session ι} (once : t.line.Nodup) {c d : ι} {left : Dialogue Catalog}
    (runs : t.running = some (c, left)) (waits : d ∈ t.waiting) : c ≠ d := by
  rintro rfl
  rw [line_of_runs runs] at once
  exact (List.nodup_cons.1 once).1 waits

variable {h new : List (Moment ι)} {s s' : Sharing ι}

/-- Everybody in line has called and is not through; nobody is heard of who has not called. -/
structure Queue (h : List (Moment ι)) (s : Sharing ι) : Prop where
  known : ∀ x ∈ h, x.caller ∈ calls h
  distinct : (calls h).Nodup
  once : s.line.Nodup
  present : ∀ c ∈ s.line, c ∈ calls h ∧ c ∉ through h

/-- Every pass is the pass of a call. -/
theorem Queue.length_passes_le (queue : Queue h s) (distinct : (passes h).Nodup) :
    (passes h).length ≤ (calls h).length := by
  have called : passes h ⊆ calls h := fun c began => queue.known _ (mem_passes.1 began)
  exact (List.subperm_of_subset distinct called).length_le

variable [DecidableEq ι] {m : Mapper} {ask : ι → Mapper.Query}

/-- What a step shows is about those in line, or about a call that arrives. -/
theorem Step.caller_mem (step : Step m ask s new s') :
    ∀ x ∈ new, x.caller ∈ s.line ∨ x.caller ∈ calls new := by
  cases step with
  | arrive c => simp [calls, Moment.caller]
  | begin empty idle turn => simp [line, Moment.caller, turn]
  | ask runs waits silent => simp [line, runs, Moment.caller]
  | reply runs sent r => simp [line, runs, Moment.caller]
  | complete runs done => simp [line, runs, Moment.caller]
  | fail runs failed => simp [line, runs, Moment.caller]
  | answer kept turn => simp [line, Moment.caller, turn]
  | leave there => simp [line, Moment.caller, there]
  | drop runs => simp [line, runs, Moment.caller]

/-- A step takes those out of line that are through, and puts a call that arrives in. -/
theorem Step.mem_line (step : Step m ask s new s') (once : s.line.Nodup) (c : ι) :
    c ∈ s'.line ↔ (c ∈ s.line ∨ c ∈ calls new) ∧ c ∉ through new := by
  -- whoever leaves does so at one place only: as the runner, or among those that wait
  have apart {d e : ι} {left : Dialogue Catalog} (runs : s.running = some (d, left))
      (waits : e ∈ s.waiting) : d ≠ e := ne_of_runs once runs waits
  simp only [mem_line_iff]
  cases step with
  | arrive d => simp [calls, through, or_assoc]
  | @begin d empty idle turn =>
      have shown : calls [.began d] = [] ∧ through [.began d] = [] := ⟨rfl, rfl⟩
      have runner : (∃ left, some (d, Discovery.pass m.mode) = some (c, left)) ↔ d = c := by simp
      grind
  | ask runs waits silent => simp [calls, through]
  | reply runs sent r => simp [calls, through, runs]
  | @complete d _ catalog runs done =>
      have shown : calls [.ended d (.ok catalog)] = [] ∧ through [.ended d (.ok catalog)] = [] :=
        ⟨rfl, rfl⟩
      grind
  | @fail d _ e runs failed =>
      have shown : calls [.ended d (.error e), .returned d (.error e)] = [] ∧
          through [.ended d (.error e), .returned d (.error e)] = [d] := ⟨rfl, rfl⟩
      grind
  | @answer d catalog kept turn =>
      have shown : calls [.returned d (m.answer catalog (ask d))] = [] ∧
          through [.returned d (m.answer catalog (ask d))] = [d] := ⟨rfl, rfl⟩
      grind
  | @leave d there =>
      have shown : calls [.abandoned d] = [] ∧ through [.abandoned d] = [d] := ⟨rfl, rfl⟩
      grind
  | @drop d _ runs =>
      have shown : calls [.abandoned d] = [] ∧ through [.abandoned d] = [d] := ⟨rfl, rfl⟩
      grind

theorem Step.nodup_line (step : Step m ask s new s') (once : s.line.Nodup)
    (unlike : ∀ c ∈ calls new, c ∉ s.line) : s'.line.Nodup := by
  cases step with
  | arrive c =>
      have fresh : c ∉ s.line := unlike c (by simp [calls])
      have grown : (s.line ++ [c]).Nodup :=
        List.Nodup.append once (by simp) (by simpa [List.disjoint_left] using fresh)
      simpa [line] using grown
  | @begin c empty idle turn =>
      rw [line_of_idle idle] at once
      have left : c ∉ s.waiting.filter (· ≠ c) := by simp
      exact List.nodup_cons.2 ⟨left, once.filter _⟩
  | ask runs waits silent => exact once
  | reply runs sent r => simpa [line, runs] using once
  | complete runs done =>
      rw [line_of_runs runs] at once
      rcases List.nodup_cons.1 once with ⟨apart, rest⟩
      rw [line_of_idle rfl]
      exact List.Nodup.append rest (by simp) (by simpa [List.disjoint_left] using apart)
  | fail runs failed =>
      rw [line_of_runs runs] at once
      exact (List.nodup_cons.1 once).2
  | answer kept turn =>
      exact once.sublist (List.Sublist.append_left List.filter_sublist _)
  | leave there =>
      exact once.sublist (List.Sublist.append_left List.filter_sublist _)
  | drop runs =>
      rw [line_of_runs runs] at once
      exact (List.nodup_cons.1 once).2

/-- What a step does to the queue. -/
theorem Queue.step (queue : Queue h s) (step : Step m ask s new s')
    (unlike : ∀ c, .arrived c ∈ new → c ∉ calls h) : Queue (h ++ new) s' where
  known := by
    intro x mem
    rw [calls_append, List.mem_append]
    rcases List.mem_append.1 mem with old | shown
    · exact .inl (queue.known x old)
    · rcases step.caller_mem x shown with there | arrives
      · exact .inl (queue.present _ there).1
      · exact .inr arrives
  distinct := by
    rw [calls_append, List.nodup_append]
    refine ⟨queue.distinct, ?_, ?_⟩
    · cases step <;> simp [calls]
    · intro c old d arrives same
      exact unlike d (mem_calls.1 arrives) (same ▸ old)
  once := by
    refine step.nodup_line queue.once fun c arrives there => ?_
    exact unlike c (mem_calls.1 arrives) (queue.present c there).1
  present := by
    intro c there
    rcases (step.mem_line queue.once c).1 there with ⟨before | arrives, stays⟩
    · have ⟨called, open_still⟩ := queue.present c before
      rw [calls_append, through_append, List.mem_append, List.mem_append, not_or]
      exact ⟨.inl called, open_still, stays⟩
    · rw [calls_append, through_append, List.mem_append, List.mem_append, not_or]
      refine ⟨.inr arrives, fun gone => ?_, stays⟩
      -- a call that arrives has not been heard of before
      have called : c ∈ calls h := by
        rcases mem_through.1 gone with ⟨result, mem⟩ | mem
        · exact queue.known _ mem
        · exact queue.known _ mem
      exact unlike c (mem_calls.1 arrives) called

theorem run_queue (run : Run m ask h s) : Queue h s := by
  induction run with
  | fresh =>
      exact ⟨by simp, List.nodup_nil, List.nodup_nil, by simp [Sharing.fresh, fresh, line]⟩
  | step before step unlike ih => exact ih.step step unlike

end Session
end ApiCatalog
