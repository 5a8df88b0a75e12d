import ApiCatalog.Proofs.Mapper.Answering
import ApiCatalog.Proofs.Session.Realize

/-!
# One discovery for all callers

Whatever the order of arrivals, replies and cancellations, the requests of a session are those of
one pass after another, all but the last of them lost. At most one pass completes; after it nothing
is asked any more, and every answer is read off its catalog.

- `Session.Timely`        : what has happened before a moment is shown
- `Session.run_timely`    : every moment of a run is timely
- `Session.run_once_only` : the account of a run, for its callers
-/

namespace ApiCatalog
namespace Session

variable {ι : Type}

/-! ## Timely moments -/

/-- What has happened before a moment is shown: a pass goes on only while none has completed, and
a caller is told the error of its own pass or an answer from a catalog that is complete. -/
def Timely (m : Mapper) (ask : ι → Mapper.Query) (before : List (Moment ι)) : Moment ι → Prop
  | .began _ | .asked .. | .replied .. | .ended .. => completions before = []
  | .returned c result =>
      (∃ e, result = .error e ∧ .ended c (.error e) ∈ before) ∨
        ∃ d catalog, .ended d (.ok catalog) ∈ before ∧ result = m.answerBy catalog (ask c)
  | .arrived _ | .abandoned _ => True

/-- A moment of a longer history stands in the old part or in the new one. -/
theorem split_append {h new before after : List (Moment ι)} {x : Moment ι}
    (eq : h ++ new = before ++ x :: after) :
    (∃ rest, h = before ++ x :: rest) ∨
      ∃ front, before = h ++ front ∧ new = front ++ x :: after := by
  rcases List.append_eq_append_iff.1 eq with ⟨front, at_new, rest⟩ | ⟨back, at_old, rest⟩
  · exact .inr ⟨front, at_new, rest⟩
  · cases back with
    | nil => exact .inr ⟨[], by simpa using at_old.symm, by simpa using rest.symm⟩
    | cons y back =>
        cases rest
        exact .inl ⟨back, at_old⟩

variable [DecidableEq ι] {m : Mapper} {ask : ι → Mapper.Query} {h new : List (Moment ι)}
  {s s' : Sharing ι}

theorem Step.timely (step : Step m ask s new s') (p : Passes m h s) :
    ∀ front x after, new = front ++ x :: after → Timely m ask (h ++ front) x := by
  intro front x after eq
  have running {c : ι} {d : Dialogue Catalog} (runs : s.running = some (c, d)) :
      completions h = [] :=
    p.completions_eq_nil (p.running c d runs).1
  -- all steps but a failure show one moment
  have alone {y : Moment ι} (one : [y] = front ++ x :: after) (t : Timely m ask h y) :
      Timely m ask (h ++ front) x := by
    cases front with
    | nil =>
        cases one
        rw [List.append_nil]
        exact t
    | cons z front => simp at one
  cases step with
  | arrive c => exact alone eq trivial
  | begin empty idle turn => exact alone eq (p.completions_eq_nil empty)
  | ask runs waits silent => exact alone eq (running runs)
  | reply runs sent r => exact alone eq (running runs)
  | complete runs done => exact alone eq (running runs)
  | fail runs failed =>
      cases front with
      | nil =>
          cases eq
          rw [List.append_nil]
          exact running runs
      | cons y front =>
          cases front with
          | nil =>
              cases eq
              exact .inl ⟨_, rfl, by simp⟩
          | cons z front => simp at eq
  | answer kept turn =>
      rcases p.exists_completed kept with ⟨d, completed⟩
      exact alone eq (.inr ⟨d, _, completed, m.answer_eq _ _⟩)
  | leave there => exact alone eq trivial
  | drop runs => exact alone eq trivial

theorem run_timely (run : Run m ask h s) :
    ∀ before x after, h = before ++ x :: after → Timely m ask before x := by
  induction run with
  | fresh =>
      intro before x after eq
      simp at eq
  | step before step unlike ih =>
      intro front x after eq
      -- the state that the last step starts from tells what had happened by then
      rcases split_append eq with ⟨rest, old⟩ | ⟨middle, rfl, new⟩
      · exact ih front x rest old
      · exact step.timely (run_passes before) middle x after new

/-! ## Outcomes -/

/-- A pass ends as a fresh mapper would end with the same replies. -/
theorem Passes.outcome (p : Passes m h s) {c : ι} {outcome : Except Error Catalog}
    (mem : .ended c outcome ∈ h) :
    ((repliesOf h c).foldl Dialogue.resume (Discovery.pass m.mode)).ending? = some outcome := by
  rcases p.ended c outcome mem with ⟨-, d, ⟨log, follows, replies, -⟩, ends⟩
  calc
    ((repliesOf h c).foldl Dialogue.resume (Discovery.pass m.mode)).ending? =
        ((log.map Prod.snd).foldl Dialogue.resume (Discovery.pass m.mode)).ending? := by
        rw [replies]
    _ = d.ending? := by rw [Dialogue.foldl_resume follows]
    _ = some outcome := ends

theorem Passes.not_lost (p : Passes m h s) {c : ι} {catalog : Catalog}
    (completed : .ended c (.ok catalog) ∈ h) : ¬Lost h c := by
  intro lost
  rcases lost with ⟨e, failed⟩ | ⟨-, open_still⟩
  · have same := (p.outcome failed).symm.trans (p.outcome completed)
    cases same
  · exact open_still catalog completed

theorem Passes.of_completed (p : Passes m h s) {c : ι} {catalog : Catalog}
    (completed : .ended c (.ok catalog) ∈ h) :
    s.kept = some catalog ∧ (passes h).getLast? = some c := by
  constructor
  · have mem : catalog ∈ (completions h).map Prod.snd :=
      List.mem_map.2 ⟨(c, catalog), mem_completions.2 completed, rfl⟩
    rw [p.kept] at mem
    simpa using mem
  · rcases p.fate c (p.ended c _ completed).1 with lost | ⟨last, -⟩
    · exact absurd lost (p.not_lost completed)
    · exact last

theorem Passes.lost_of_mem_dropLast (p : Passes m h s) {c : ι} (mem : c ∈ (passes h).dropLast) :
    Lost h c := by
  rcases p.fate c ((List.dropLast_sublist _).subset mem) with lost | ⟨last, -⟩
  · exact lost
  · -- the last pass does not stand among those before it
    have distinct := p.distinct
    rcases List.getLast?_eq_some_iff.1 last with ⟨earlier, split⟩
    rw [split] at distinct mem
    rw [List.dropLast_concat] at mem
    exact absurd (List.mem_singleton.2 rfl) (List.disjoint_of_nodup_append distinct mem)

theorem Passes.length_completions_le (p : Passes m h s) : (completions h).length ≤ 1 := by
  have length := congrArg List.length p.kept
  rw [List.length_map] at length
  rw [length]
  cases s.kept with
  | none => simp
  | some catalog => simp

/-- Once a pass has completed, no pass goes on. -/
theorem ofPass_after_completed (run : Run m ask h s) {before after : List (Moment ι)} {c : ι}
    {catalog : Catalog} (eq : h = before ++ .ended c (.ok catalog) :: after) {x : Moment ι}
    (mem : x ∈ after) : x.ofPass = false := by
  rcases List.append_of_mem mem with ⟨between, later, rfl⟩
  have whole : h = (before ++ .ended c (.ok catalog) :: between) ++ x :: later := by simp [eq]
  have timely := run_timely run _ x later whole
  have completed : (c, catalog) ∈ completions (before ++ .ended c (.ok catalog) :: between) :=
    mem_completions.2 (by simp)
  -- a moment of a pass is timely only while nothing has completed
  have not_yet (none : completions (before ++ .ended c (.ok catalog) :: between) = []) : False := by
    rw [none] at completed
    cases completed
  cases x with
  | began d => exact (not_yet timely).elim
  | asked d request => exact (not_yet timely).elim
  | replied d reply => exact (not_yet timely).elim
  | ended d outcome => exact (not_yet timely).elim
  | _ => rfl

/-! ## The run as a whole -/

/-- Callers share one discovery. In every run the requests are those of one pass after another, and
each pass asks what `Discovery.pass` asks for the replies that it gets. Every pass but the last is
lost; at most one completes, the last one, and no pass goes on after it. The catalog that it makes
is kept: it is what a fresh mapper makes of the same replies. A caller is told the error of its own
pass, or what resolves in that catalog once it is complete. -/
theorem run_once_only (run : Run m ask h s) :
    requests h = ((passes h).flatMap fun c => (requestsOf h c).map (c, ·)) ∧
    (passes h).Nodup ∧
    (∀ c ∈ passes h, ∃ (log : List Exchange) (left : Dialogue Catalog),
      (Discovery.pass m.mode).follow log = some left ∧ repliesOf h c = log.map Prod.snd ∧
      (requestsOf h c = log.map Prod.fst ∨
        ∃ request, left.pending? = some request ∧
          requestsOf h c = log.map Prod.fst ++ [request])) ∧
    (∀ c ∈ (passes h).dropLast, Lost h c) ∧
    (completions h).length ≤ 1 ∧
    (∀ before c catalog after, h = before ++ .ended c (.ok catalog) :: after →
      ∀ x ∈ after, x.ofPass = false) ∧
    (∀ c catalog, .ended c (.ok catalog) ∈ h →
      s.kept = some catalog ∧ (passes h).getLast? = some c ∧
      ((repliesOf h c).foldl Dialogue.resume (Discovery.pass m.mode)).ending? =
        some (.ok catalog)) ∧
    ∀ before c result after, h = before ++ .returned c result :: after →
      (∃ e, result = .error e ∧ .ended c (.error e) ∈ before) ∨
        ∃ d catalog, .ended d (.ok catalog) ∈ before ∧ result = m.answerBy catalog (ask c) := by
  have p := run_passes run
  refine ⟨p.trace, p.distinct, ?_, fun c mem => p.lost_of_mem_dropLast mem, ?_, ?_, ?_, ?_⟩
  · intro c mem
    rcases p.along c mem with ⟨left, asked, log, follows, replies, requests, waits⟩
    refine ⟨log, left, follows, replies, ?_⟩
    cases asked with
    | false => exact .inl (by simpa using requests)
    | true =>
        -- the request under way is the one beyond the exchanges
        cases pending : left.pending? with
        | none => exact absurd pending (waits rfl)
        | some request => exact .inr ⟨request, rfl, by simpa [pending] using requests⟩
  · exact p.length_completions_le
  · intro before c catalog after eq x mem
    exact ofPass_after_completed run eq mem
  · intro c catalog completed
    rcases p.of_completed completed with ⟨kept, last⟩
    exact ⟨kept, last, p.outcome completed⟩
  · intro before c result after eq
    exact run_timely run before _ after eq

/-- A pass that is refused is lost, and the next one is kept. -/
theorem once_only_retried :
    ∃ catalog s, Run .default (fun _ : Bool => .size) (retried catalog) s ∧
      Lost (retried catalog) false ∧ s.kept = some catalog := by
  rcases run_retried with ⟨catalog, run⟩
  have ⟨_, _, _, lost, _, _, completed, _⟩ := run_once_only run
  have kept := (completed true catalog (by simp [retried])).1
  exact ⟨catalog, _, run, lost false List.mem_cons_self, kept⟩

end Session
end ApiCatalog
