import ApiCatalog.Proofs.Task.Withdrawal

/-!
# Tasks as runs

A task that is carried out against a service is a run of the session that its queries share: every
query arrives, passes are held one after another, and whoever withdraws gives up. The service is
asked what the run shows, in its order, and the result is what can be read off the run.

- `Task.Shows`                : a history that shows what has become of a task
- `Task.UnderWay`             : a task between two rounds, with the history so far
- `Task.UnderWay.exists_over` : the rounds of a task are a run
- `Task.Carried`              : what a run tells about a task that was carried out
- `Task.exists_carried`       : every task that is carried out shows such a run
-/

namespace ApiCatalog
namespace Task

open Http (Request)
open Session (Moment Sharing Serves calls returns leavers told exchanged resting)

/-! ## A task under way -/

variable {σ : Type} {serve : Dialogue.Service σ} {m : Mapper} {ask : Place → Mapper.Query}
  {t : Task} {start : σ} {before new more : List (Moment Place)} {r : Run σ}

theorem mem_givenUp_append {part : Place} : part ∈ t.givenUp (new ++ more) ↔
    part ∈ t.givenUp new ∨ ∃ x ∈ t.seats, x.within = some part ∧ x.place ∈ leavers more := by
  simp only [mem_givenUp, Session.leavers_append, List.mem_append, and_or_left, exists_or]

/-- A history that shows all that has become of a task under way. -/
structure Shows (serve : Dialogue.Service σ) (m : Mapper) (ask : Place → Mapper.Query) (t : Task)
    (start : σ) (new : List (Moment Place)) (r : Run σ) : Prop where
  called : calls new = t.callers
  returned : returns new = r.progress.settled.map (told m ask)
  within : ∀ p ∈ leavers new, p ∈ covered t.seats
  dropped : ∀ part, part ∈ r.progress.dropped ↔ part ∈ t.givenUp new
  served : Serves serve start new r.service

/-- A history that goes on without calls. -/
theorem Shows.extend {r' : Run σ} (shown : Shows serve m ask t start new r)
    (no_call : calls more = []) (settled : List (Session.Settled Place))
    (more_settled : r'.progress.settled = r.progress.settled ++ settled)
    (returned : returns more = settled.map (told m ask))
    (within : ∀ p ∈ leavers more, p ∈ covered t.seats)
    (gone : ∀ part, part ∈ r'.progress.dropped ↔ part ∈ r.progress.dropped ∨
      ∃ x ∈ t.seats, x.within = some part ∧ x.place ∈ leavers more)
    (served : Serves serve r.service more r'.service) :
    Shows serve m ask t start (new ++ more) r' where
  called := by simp [shown.called, no_call]
  returned := by simp [shown.returned, more_settled, returned]
  within p mem := by
    rw [Session.leavers_append] at mem
    rcases List.mem_append.1 mem with before | later
    · exact shown.within p before
    · exact within p later
  dropped part := by rw [gone, shown.dropped, mem_givenUp_append]
  served := shown.served.append served

/-- A history that goes on with a pass that stalls and those who withdraw then. -/
theorem Shows.withdraws {pass : Dialogue Catalog} {c : Place} {log : List Exchange}
    {request : Request} {events : List Event} {s : Standstill} {service : σ}
    (shown : Shows serve m ask t start new r)
    (withdrawn : Withdrawn pass t.seats ⟨c, r.session, r.progress.dropped, events⟩ s)
    (heard : Serves serve r.service (exchanged c log ++ [.asked c request]) service) :
    Shows serve m ask t start
      (new ++ Session.holding c log
        (.asked c request :: (r.session.line.filter (· ∈ covered t.seats)).map .abandoned))
      ⟨s.session, { r.progress with dropped := s.dropped }, service, s.events⟩ := by
  have left : leavers ((.asked c request : Moment Place) ::
      (r.session.line.filter (· ∈ covered t.seats)).map .abandoned) =
        r.session.line.filter (· ∈ covered t.seats) := by
    simp [leavers]
  refine shown.extend ?_ [] (List.append_nil _).symm ?_ ?_ ?_ ?_
  · rw [Session.calls_holding]
    simp [calls]
  · rw [Session.returns_holding]
    simp [returns]
  · intro p mem
    rw [Session.leavers_holding, left] at mem
    simpa using (List.mem_filter.1 mem).2
  · intro part
    rw [withdrawn.dropped, Session.leavers_holding, left]
    -- a seat within a part is covered, so its caller is in line exactly if it leaves now
    refine or_congr_right (exists_congr fun x => and_congr_right fun mem => ?_)
    refine and_congr_right fun within => ?_
    have covers : x.place ∈ covered t.seats := mem_covered.2 ⟨x, mem, by simp [within], rfl⟩
    simp [covers]
  · have quiet : ∀ x ∈ (r.session.line.filter (· ∈ covered t.seats)).map Moment.abandoned,
        x.spoken = false := by
      intro x mem
      rcases List.mem_map.1 mem with ⟨p, -, rfl⟩
      rfl
    have served := heard.append (.of_quiet service quiet)
    rw [List.append_assoc] at served
    exact .other rfl served

/-- A task between two rounds, with a history of a run from `before` on. -/
structure UnderWay (serve : Dialogue.Service σ) (m : Mapper) (ask : Place → Mapper.Query) (t : Task)
    (start : σ) (before new : List (Moment Place)) (r : Run σ) : Prop extends
    Shows serve m ask t start new r where
  run : Session.Run m ask (before ++ new) (resting r.session)
  manned : r.session.Manned (Discovery.pass m.mode)
  inside : r.session.line ⊆ t.callers

/-- A task whose rounds are over: nobody is left in line, or a request gets no reply. -/
structure Over (serve : Dialogue.Service σ) (m : Mapper) (ask : Place → Mapper.Query) (t : Task)
    (start : σ) (before new : List (Moment Place)) (left : Sharing Place) (r : Run σ) : Prop extends
    Shows serve m ask t start new r where
  run : Session.Run m ask (before ++ new) left
  kept : left.kept = r.session.kept
  line : left.line = r.session.line
  ended : left.line = [] ∨ left.asked = true

namespace UnderWay

/-- With nobody in line, the rounds are over. -/
theorem stop (u : UnderWay serve m ask t start before new r) (nobody : r.session.line = []) :
    ∃ more left, Over serve m ask t start before (new ++ more) left r := by
  have same : (resting r.session).line = r.session.line := by simp [resting, Session.line]
  refine ⟨[], resting r.session, ?_⟩
  rw [List.append_nil]
  exact ⟨u.toShows, u.run, rfl, same, .inl (same.trans nobody)⟩

section Rounds

variable {c : Place} {d : Dialogue Catalog} (u : UnderWay serve m ask t start before new r)
  (runs : r.session.running = some (c, d))

include u runs

/-- At the head of a round the next in line may begin a pass. -/
theorem first_in_line :
    Session.Run m ask (before ++ new) ⟨⟨none, none, c :: r.session.waiting⟩, false⟩ := by
  have empty : r.session.kept = none := u.manned.empty (by simp [runs])
  have run := u.run
  rw [resting, empty, Session.line_of_runs runs] at run
  exact run

/-- Whatever is left of the pass, it is held as if it had just begun. A pass that ends has
exchanges, -/
theorem exists_ended {outcome : Except Error Catalog}
    (ends : (d.against serve r.service).outcome.ended? = some outcome) :
    ∃ log, (Discovery.pass m.mode).result? log = some outcome ∧
      Serves serve r.service (exchanged c log) (d.against serve r.service).service := by
  rcases Dialogue.against_of_opened (u.manned.unasked c d runs) serve r.service with
    ⟨service, same⟩
  rw [same] at ends
  refine ⟨(Discovery.pass m.mode).heard serve r.service, ?_, ?_⟩
  · rw [Dialogue.result?_heard, ends]
  · rw [service]
    exact .heard c _ _ (by simp [ends])

/-- and so has one that stalls, up to a request without a reply. -/
theorem exists_stalled (stalls : (d.against serve r.service).outcome = .stalled) :
    ∃ log left request, (Discovery.pass m.mode).follow log = some left ∧
      left.pending? = some request ∧
      Serves serve r.service (exchanged c log ++ [.asked c request])
        (d.against serve r.service).service := by
  rcases Dialogue.against_of_opened (u.manned.unasked c d runs) serve r.service with
    ⟨service, same⟩
  rw [same] at stalls
  rw [service]
  exact ⟨_, Serves.stalled c _ r.service (by simp [stalls, Dialogue.Outcome.ended?])⟩

/-- A round with a pass that ends. -/
theorem concludes {outcome : Except Error Catalog} (events : List Event)
    (ends : (d.against serve r.service).outcome.ended? = some outcome) :
    let concluded := r.session.conclude (Discovery.pass m.mode) c outcome
    ∃ more, UnderWay serve m ask t start before (new ++ more)
        ⟨concluded.1, { r.progress with settled := r.progress.settled ++ concluded.2 },
          (d.against serve r.service).service, events⟩ ∧
      concluded.1.line.length < r.session.line.length := by
  intro concluded
  have empty : r.session.kept = none := u.manned.empty (by simp [runs])
  have line : r.session.line = c :: r.session.waiting := Session.line_of_runs runs
  have rest : concluded.1.line.Sublist r.session.waiting := Session.line_conclude_sublist _ _ _ _
  rcases u.exists_ended runs ends with ⟨log, result, heard⟩
  rcases (u.first_in_line runs).concludes empty result with
    ⟨last, run, settling⟩
  refine ⟨Session.holding c log last, ⟨?_, ?_, u.manned.conclude runs outcome, ?_⟩, ?_⟩
  · refine u.toShows.extend ?_ concluded.2 rfl ?_ ?_ ?_ ?_
    · simpa using settling.called
    · simpa using settling.returned
    · simp [settling.stayed]
    · simp [settling.stayed]
    · exact .other rfl (heard.append (.of_quiet _ settling.quiet))
  · rw [← List.append_assoc]
    exact run
  · intro p mem
    apply u.inside
    rw [line]
    exact List.mem_cons_of_mem c (rest.subset mem)
  · rw [line]
    exact Nat.lt_succ_of_le rest.length_le

/-- A round with a pass that stalls. Whoever can be given up withdraws; when the caller of the pass
is not among them, the task is over. -/
theorem stalls (events : List Event)
    (stalled : (d.against serve r.service).outcome = .stalled) :
    let s := withdraw (Discovery.pass m.mode) t ⟨c, r.session, r.progress.dropped, events⟩
    let r' : Run σ := ⟨s.session, { r.progress with dropped := s.dropped },
      (d.against serve r.service).service, s.events⟩
    (c ∉ s.session.line ∧ s.session.line.length < r.session.line.length ∧
      ∃ more, UnderWay serve m ask t start before (new ++ more) r') ∨
    (c ∈ s.session.line ∧ ∃ more left, Over serve m ask t start before (new ++ more) left r') := by
  intro s r'
  have line : r.session.line = c :: r.session.waiting := Session.line_of_runs runs
  have withdrawn : Withdrawn (Discovery.pass m.mode) t.seats
      ⟨c, r.session, r.progress.dropped, events⟩ s := withdrawn_withdraw t _ u.inside
  have kept_after : s.session.kept = none := withdrawn.kept.trans (u.manned.empty (by simp [runs]))
  have line_after : s.session.line =
      r.session.line.filter fun p => !decide (p ∈ covered t.seats) := by
    simpa using withdrawn.line
  rcases u.exists_stalled runs stalled with ⟨log, waiting, request, follows, waits, heard⟩
  have asked := ((u.first_in_line runs).begins.converse follows).go (.ask rfl waits rfl) rfl
  rcases asked.gives_up (· ∈ covered t.seats) with ⟨left, run, kept, line_left, goes⟩
  rw [← line] at run line_left goes
  rw [← line_after] at line_left goes
  have shown := u.toShows.withdraws withdrawn heard
  have run : Session.Run m ask (before ++ (new ++ Session.holding c log (.asked c request ::
      (r.session.line.filter (· ∈ covered t.seats)).map .abandoned))) left := by
    simpa [Session.holding] using run
  -- the request is forgotten with its caller, or it stays under way for good
  by_cases own : c ∈ covered t.seats
  · have gone : c ∉ s.session.line := by simp [line_after, own]
    have rests : left = resting s.session := by
      rw [if_pos (by simpa using own)] at goes
      rw [goes, resting, kept_after]
    refine .inl ⟨gone, ?_, _, shown, rests ▸ run, withdrawn.manned u.manned, ?_⟩
    · rw [line_after, List.length_filter_lt_length_iff_exists]
      exact ⟨c, by simp [line], by simp [own]⟩
    · intro p mem
      apply u.inside
      rw [line_after] at mem
      exact List.mem_of_mem_filter mem
  · have stays : c ∈ s.session.line := by simp [line_after, line, own]
    rw [if_neg (by simpa using own)] at goes
    exact .inr ⟨stays, _, left, shown, run, kept.trans kept_after.symm, line_left, .inr goes⟩

end Rounds

/-- The rounds of a task are a run. -/
theorem exists_over {fuel : Nat} (u : UnderWay serve m ask t start before new r)
    (enough : r.session.line.length ≤ fuel) :
    ∃ more left, Over serve m ask t start before (new ++ more) left
      (drive serve (Discovery.pass m.mode) t fuel r) := by
  induction fuel generalizing new r with
  | zero =>
      have nobody : r.session.line = [] := List.length_eq_zero_iff.1 (Nat.le_zero.1 enough)
      exact u.stop nobody
  | succ fuel ih =>
      -- every round takes its caller out of line, so the fuel for the others is enough
      have go {more : List (Moment Place)} {r' : Run σ}
          (next : UnderWay serve m ask t start before (new ++ more) r')
          (shorter : r'.session.line.length < r.session.line.length) :
          ∃ more left, Over serve m ask t start before (new ++ more) left
            (drive serve (Discovery.pass m.mode) t fuel r') := by
        rcases ih next (by omega) with ⟨later, left, ended⟩
        rw [List.append_assoc] at ended
        exact ⟨_, left, ended⟩
      unfold drive
      cases runs : r.session.running with
      | none =>
          have nobody : r.session.line = [] := by
            rw [Session.line_of_idle runs]
            exact u.manned.nobody runs
          exact u.stop nobody
      | some runner =>
          rcases runner with ⟨c, d⟩
          dsimp only
          cases outcome : (d.against serve r.service).outcome with
          | done catalog =>
              rcases u.concludes runs _ (by rw [outcome]; rfl) with ⟨more, next, shorter⟩
              exact go next shorter
          | failed e =>
              rcases u.concludes runs _ (by rw [outcome]; rfl) with ⟨more, next, shorter⟩
              exact go next shorter
          | stalled =>
              rcases u.stalls runs _ outcome with
                ⟨gone, shorter, more, next⟩ | ⟨stays, more, left, ended⟩
              · rw [if_neg gone]
                exact go next shorter
              · rw [if_pos stays]
                exact ⟨more, left, ended⟩

end UnderWay

/-! ## Whole tasks -/

theorem arriveAll_cons (pass : Dialogue Catalog) (s : Session Place) (c : Place)
    (rest : List Place) :
    arriveAll pass s (c :: rest) =
      ((arriveAll pass (s.arrive pass c).1 rest).1,
        (s.arrive pass c).2 ++ (arriveAll pass (s.arrive pass c).1 rest).2) := by
  -- who is settled by the calls behind does not depend on who has been settled before
  have later (cs : List Place) (s : Session Place) (settled : List (Session.Settled Place)) :
      cs.foldl (fun x c => ((x.1.arrive pass c).1, x.2 ++ (x.1.arrive pass c).2)) (s, settled) =
        ((arriveAll pass s cs).1, settled ++ (arriveAll pass s cs).2) := by
    induction cs generalizing s settled with
    | nil => simp [arriveAll]
    | cons c rest ih =>
        have first : arriveAll pass s (c :: rest) = _ :=
          ih (s.arrive pass c).1 ([] ++ (s.arrive pass c).2)
        rw [List.foldl_cons, ih, first, List.nil_append, List.append_assoc]
  exact later rest _ _

/-- Every query arrives. -/
theorem exists_arriveAll {h : List (Moment Place)} {s : Session Place} {cs : List Place}
    (manned : s.Manned (Discovery.pass m.mode)) (run : Session.Run m ask h (resting s))
    (once : cs.Nodup) (unlike : ∀ c ∈ cs, c ∉ calls h) :
    let arrived := arriveAll (Discovery.pass m.mode) s cs
    arrived.1.Manned (Discovery.pass m.mode) ∧ arrived.1.line.Sublist (s.line ++ cs) ∧
    ∃ new, Session.Run m ask (h ++ new) (resting arrived.1) ∧
      Session.Settling m ask cs arrived.2 new := by
  induction cs generalizing h s with
  | nil =>
      refine ⟨manned, by simp [arriveAll], [], ?_, rfl, rfl, rfl, by simp⟩
      rw [List.append_nil]
      exact run
  | cons c rest ih =>
      rcases List.nodup_cons.1 once with ⟨absent, others⟩
      rcases run.arrives manned (unlike c List.mem_cons_self) with ⟨first, shown, settling⟩
      have fresh : ∀ d ∈ rest, d ∉ calls (h ++ first) := by
        intro d mem
        have other : d ≠ c := by
          rintro rfl
          exact absent mem
        simpa [settling.called, other] using unlike d (List.mem_cons_of_mem c mem)
      rcases ih (manned.arrive c) shown others fresh with
        ⟨manned', line, later, shown', settling'⟩
      rw [arriveAll_cons]
      refine ⟨manned', ?_, first ++ later, ?_, settling.append settling'⟩
      · simpa using line.trans ((manned.line_arrive_sublist c).append_right rest)
      · rw [← List.append_assoc]
        exact shown'

/-- What a history of a run tells about a task that was carried out with an outcome: its queries are
the calls, only queries within parts that can be given up give up, the service is asked what the
run shows, what is kept in the end is kept for the next task, nobody is left in line unless a
request gets no reply, and the result is read off the history. -/
structure Carried (serve : Dialogue.Service σ) (m : Mapper) (ask : Place → Mapper.Query) (t : Task)
    (start : σ) (before new : List (Moment Place)) (left : Sharing Place)
    (outcome : Result × Option Catalog × σ × List Event) : Prop where
  run : Session.Run m ask (before ++ new) left
  called : calls new = t.callers
  within : ∀ p ∈ leavers new, p ∈ covered t.seats
  served : Serves serve start new outcome.2.2.1
  kept : left.kept = outcome.2.1
  ended : left.line = [] ∨ left.asked = true
  result : outcome.1 = t.read new

/-- A task that is carried out shows a run from the state that it finds. -/
theorem exists_carried (serve : Dialogue.Service σ) (m : Mapper) (kept : Option Catalog) (s : σ)
    (t : Task) {before : List (Moment Place)} (agrees : ∀ x ∈ t.seats, ask x.place = x.query)
    (found : Session.Run m ask before ⟨⟨kept, none, []⟩, false⟩)
    (unlike : ∀ c ∈ t.callers, c ∉ calls before) :
    ∃ new left, Carried serve m ask t s before new left (run serve m kept s t) := by
  have manned : ({ Session.fresh with kept := kept } : Session Place).Manned
      (Discovery.pass m.mode) := Session.manned_of_idle rfl rfl
  rcases exists_arriveAll manned found (nodup_callersAt [] t) unlike with
    ⟨manned, line, new, shown, settling⟩
  -- when all have arrived nothing has been asked, and nobody has given up
  have u : UnderWay serve m ask t s before new
      ⟨(arriveAll (Discovery.pass m.mode) { Session.fresh with kept := kept } t.callers).1,
        ⟨(arriveAll (Discovery.pass m.mode) { Session.fresh with kept := kept } t.callers).2, []⟩,
        s, []⟩ := by
    refine ⟨⟨settling.called, settling.returned, ?_, ?_, .of_quiet s settling.quiet⟩, shown,
      manned, line.subset⟩
    · simp [settling.stayed]
    · simp [mem_givenUp, settling.stayed]
  rcases u.exists_over line.length_le with ⟨more, left, o⟩
  have result := resultAt_eq_readAt o.returned o.dropped [] t agrees
  exact ⟨new ++ more, left, o.run, o.called, o.within, o.served, o.kept, o.ended, result⟩

/-- On a mapper that has kept nothing yet, it is a run from the start. -/
theorem exists_carried_fresh (serve : Dialogue.Service σ) (m : Mapper) (s : σ) (t : Task) :
    ∃ h left, Carried serve m t.ask t s [] h left (run serve m none s t) := by
  have unlike : ∀ c ∈ t.callers, c ∉ calls ([] : List (Moment Place)) := by simp [calls]
  exact exists_carried serve m none s t (fun _ mem => ask_of_mem_seats mem) .fresh unlike

end Task
end ApiCatalog
