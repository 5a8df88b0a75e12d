import ApiCatalog.Dialogue.Laws
import ApiCatalog.Proofs.Session.Realize

/-!
# Rounds of a session

A session may be driven in rounds: the first in line holds its pass to the end, or up to a request
that gets no reply. What is done to the session in a round is what a run may show, and the service
that the pass is held against is asked just what the run shows.

- `Session.Manned`        : while anybody is in line, somebody runs
- `Session.Serves`        : a service that was asked what a history shows
- `Session.Settling`      : calls that arrive and callers that return
- `Session.Run.arrives`   : a call
- `Session.Run.concludes` : the end of a pass
- `Session.Run.gives_up`  : some of those in line give up while a request gets no reply
-/

namespace ApiCatalog
namespace Session

open Http (Request)

variable {ι : Type}

/-! ## Between two passes -/

section Between

variable {pass : Dialogue Catalog} {s : Session ι} {c : ι} {d : Dialogue Catalog}

/-- The session as a run has it before the next pass begins. -/
def resting (s : Session ι) : Sharing ι :=
  ⟨⟨s.kept, none, s.line⟩, false⟩

/-- Somebody runs while anybody is in line. The cell is empty then, and of the pass nothing but its
opening is over. -/
structure Manned (pass : Dialogue Catalog) (s : Session ι) : Prop where
  empty : s.running ≠ none → s.kept = none
  nobody : s.running = none → s.waiting = []
  unasked : ∀ c d, s.running = some (c, d) → d.opened = pass.opened

theorem manned_of_runs (empty : s.kept = none) (runs : s.running = some (c, d))
    (unasked : d.opened = pass.opened) : s.Manned pass := by
  refine ⟨fun _ => empty, fun idle => ?_, fun b left runs' => ?_⟩
  · cases runs.symm.trans idle
  · cases runs.symm.trans runs'
    exact unasked

theorem manned_of_idle (idle : s.running = none) (nobody : s.waiting = []) : s.Manned pass := by
  refine ⟨fun busy => absurd idle busy, fun _ => nobody, fun c d runs => ?_⟩
  cases idle.symm.trans runs

theorem kept_advance (pass : Dialogue Catalog) (s : Session ι) :
    (s.advance pass).kept = s.kept := by
  unfold advance
  split
  · rfl
  · rfl

/-- With the cell empty, whoever is next runs. -/
theorem manned_advance (empty : s.kept = none) : (s.advance pass).Manned pass := by
  unfold advance
  split
  · next alone => exact manned_of_idle rfl alone
  · exact manned_of_runs empty rfl rfl

/-- Nobody is in line behind a pass that has ended but those who waited for it. -/
theorem line_conclude_sublist (pass : Dialogue Catalog) (s : Session ι) (c : ι)
    (outcome : Except Error Catalog) : (s.conclude pass c outcome).1.line.Sublist s.waiting := by
  cases outcome with
  | ok catalog => exact List.nil_sublist _
  | error e => simp [conclude]

namespace Manned

variable (manned : s.Manned pass)

include manned

theorem arrive (c : ι) : (s.arrive pass c).1.Manned pass := by
  unfold Session.arrive
  split
  · exact manned
  · next empty _ => exact manned_of_runs empty rfl rfl
  · next empty runs => exact manned_of_runs empty runs (manned.unasked _ _ runs)

/-- Nobody comes into line but the caller that arrives. -/
theorem line_arrive_sublist (c : ι) : (s.arrive pass c).1.line.Sublist (s.line ++ [c]) := by
  unfold Session.arrive
  split
  · exact List.sublist_append_left s.line [c]
  · next idle => simp [line, idle, manned.nobody idle]
  · next runs => simp [line, runs]

theorem conclude (runs : s.running = some (c, d)) (outcome : Except Error Catalog) :
    (s.conclude pass c outcome).1.Manned pass := by
  cases outcome with
  | ok catalog => exact manned_of_idle rfl rfl
  | error e => exact manned_advance (manned.empty (by simp [runs]))

end Manned

variable [DecidableEq ι]

theorem kept_abandon (pass : Dialogue Catalog) (s : Session ι) (c : ι) :
    (s.abandon pass c).kept = s.kept := by
  unfold abandon
  split
  · split
    · exact kept_advance pass _
    · rfl
  · rfl

theorem Manned.abandon (manned : s.Manned pass) (c : ι) : (s.abandon pass c).Manned pass := by
  unfold Session.abandon
  split
  · next b left runs =>
      have empty : s.kept = none := manned.empty (by simp [runs])
      split
      · exact manned_advance empty
      · exact manned_of_runs empty runs (manned.unasked b left runs)
  · next idle => exact manned_of_idle idle (by simp [manned.nobody idle])

theorem kept_abandonAll (pass : Dialogue Catalog) (s : Session ι) (cs : List ι) :
    (s.abandonAll pass cs).kept = s.kept := by
  induction cs generalizing s with
  | nil => rfl
  | cons c rest ih => exact (ih (s.abandon pass c)).trans (kept_abandon pass s c)

theorem Manned.abandonAll (manned : s.Manned pass) (cs : List ι) :
    (s.abandonAll pass cs).Manned pass := by
  induction cs generalizing s with
  | nil => exact manned
  | cons c rest ih => exact ih (manned.abandon c)

end Between

/-! ## Services and histories -/

section Services

variable {σ : Type} {serve : Dialogue.Service σ} {s s' s'' : σ} {h new : List (Moment ι)}

/-- Whether a moment is a request or a reply. -/
def Moment.spoken : Moment ι → Bool
  | .asked .. | .replied .. => true
  | _ => false

/-- A service that was asked the requests of a history gave the replies that follow them, and is in
another state now. -/
inductive Serves (serve : Dialogue.Service σ) : σ → List (Moment ι) → σ → Prop
  | nil (s : σ) : Serves serve s [] s
  | replied {s s' s'' : σ} {c : ι} {request : Request} {events : List Event} {reply : Reply}
      {h : List (Moment ι)} (served : serve s request = (s', events, some reply))
      (rest : Serves serve s' h s'') :
      Serves serve s (.asked c request :: .replied c reply :: h) s''
  | silent {s s' s'' : σ} {c : ι} {request : Request} {events : List Event} {h : List (Moment ι)}
      (served : serve s request = (s', events, none)) (rest : Serves serve s' h s'') :
      Serves serve s (.asked c request :: h) s''
  | other {s s' : σ} {x : Moment ι} {h : List (Moment ι)} (quiet : x.spoken = false)
      (rest : Serves serve s h s') : Serves serve s (x :: h) s'

namespace Serves

theorem append (first : Serves serve s h s') (second : Serves serve s' new s'') :
    Serves serve s (h ++ new) s'' := by
  induction first with
  | nil s => exact second
  | replied served _ ih => exact .replied served (ih second)
  | silent served _ ih => exact .silent served (ih second)
  | other quiet _ ih => exact .other quiet (ih second)

theorem of_quiet (s : σ) (quiet : ∀ x ∈ h, x.spoken = false) : Serves serve s h s := by
  induction h with
  | nil => exact .nil s
  | cons x rest ih =>
      apply Serves.other (quiet x List.mem_cons_self)
      exact ih fun y mem => quiet y (List.mem_cons_of_mem x mem)

/-- A dialogue that is held against a service asks it what is heard. -/
theorem heard {α : Type} (c : ι) (d : Dialogue α) (s : σ)
    (ended : (d.against serve s).outcome.ended? ≠ none) :
    Serves serve s (exchanged c (d.heard serve s)) (d.against serve s).service := by
  induction d generalizing s with
  | done x => exact .nil s
  | failed e => exact .nil s
  | report event next ih => exact ih s ended
  | ask request next ih =>
      unfold Dialogue.against at ended ⊢
      unfold Dialogue.heard
      rcases served : serve s request with ⟨s', events, answer⟩
      rw [served] at ended
      cases answer with
      | none => exact absurd rfl ended
      | some reply => exact .replied served (ih reply s' ended)

/-- When it stalls, there is one request more, which gets no reply. -/
theorem stalled {α : Type} (c : ι) (d : Dialogue α) (s : σ)
    (stalls : (d.against serve s).outcome.ended? = none) :
    ∃ left request, d.follow (d.heard serve s) = some left ∧ left.pending? = some request ∧
      Serves serve s (exchanged c (d.heard serve s) ++ [.asked c request])
        (d.against serve s).service := by
  induction d generalizing s with
  | done x => cases stalls
  | failed e => cases stalls
  | report event next ih =>
      rcases ih s stalls with ⟨left, request, follows, waits, serves⟩
      unfold Dialogue.heard
      -- without an exchange what is left is the dialogue itself, with its report
      cases log : next.heard serve s with
      | nil =>
          rw [log] at follows serves
          cases follows
          exact ⟨.report event next, request, rfl, waits, serves⟩
      | cons x rest =>
          rw [log] at follows serves
          exact ⟨left, request, follows, waits, serves⟩
  | ask request next ih =>
      unfold Dialogue.against at stalls ⊢
      unfold Dialogue.heard
      rcases served : serve s request with ⟨s', events, answer⟩
      rw [served] at stalls
      cases answer with
      | none => exact ⟨.ask request next, request, rfl, rfl, .silent served (.nil s')⟩
      | some reply =>
          rcases ih reply s' stalls with ⟨left, last, follows, waits, serves⟩
          refine ⟨left, last, ?_, waits, .replied served serves⟩
          simpa [Dialogue.follow, Dialogue.pending?, Dialogue.resume] using follows

end Serves
end Services

/-! ## Rounds -/

variable {h : List (Moment ι)}

/-- The callers that gave up. -/
def leavers (h : List (Moment ι)) : List ι :=
  h.filterMap fun
    | .abandoned c => some c
    | _ => none

@[simp]
theorem leavers_append (h new : List (Moment ι)) : leavers (h ++ new) = leavers h ++ leavers new :=
  List.filterMap_append

/-- A pass that begins, its exchanges, and what comes after them. -/
def holding (c : ι) (log : List Exchange) (last : List (Moment ι)) : List (Moment ι) :=
  .began c :: (exchanged c log ++ last)

section Holding

variable (c : ι) (log : List Exchange) (last : List (Moment ι))

@[simp]
theorem calls_holding : calls (holding c log last) = calls last := by
  simp [calls, holding, exchanged, List.filterMap_flatMap]

@[simp]
theorem returns_holding : returns (holding c log last) = returns last := by
  simp [returns, holding, exchanged, List.filterMap_flatMap]

@[simp]
theorem leavers_holding : leavers (holding c log last) = leavers last := by
  simp [leavers, holding, exchanged, List.filterMap_flatMap]

end Holding

/-- Moments in which calls arrive and settled callers return, and nothing else but passes that
begin and end. -/
structure Settling (m : Mapper) (ask : ι → Mapper.Query) (cs : List ι) (settled : List (Settled ι))
    (new : List (Moment ι)) : Prop where
  called : calls new = cs
  returned : returns new = settled.map (told m ask)
  stayed : leavers new = []
  quiet : ∀ x ∈ new, x.spoken = false

theorem Settling.append {m : Mapper} {ask : ι → Mapper.Query} {cs cs' : List ι}
    {settled settled' : List (Settled ι)} {new new' : List (Moment ι)}
    (first : Settling m ask cs settled new) (second : Settling m ask cs' settled' new') :
    Settling m ask (cs ++ cs') (settled ++ settled') (new ++ new') where
  called := by simp [first.called, second.called]
  returned := by simp [first.returned, second.returned]
  stayed := by simp [first.stayed, second.stayed]
  quiet x mem := by
    rcases List.mem_append.1 mem with here | there
    · exact first.quiet x here
    · exact second.quiet x there

variable [DecidableEq ι] {m : Mapper} {ask : ι → Mapper.Query}

/-- Callers that wait may give up in turn. -/
theorem Run.leaves {s : Sharing ι} {gone : List ι} (run : Run m ask h s) (once : gone.Nodup)
    (there : ∀ c ∈ gone, c ∈ s.waiting) :
    Run m ask (h ++ gone.map .abandoned) { s with waiting := s.waiting.filter (· ∉ gone) } := by
  induction gone generalizing h s with
  | nil => simpa using run
  | cons c rest ih =>
      rcases List.nodup_cons.1 once with ⟨absent, others⟩
      have left := run.go (.leave (there c List.mem_cons_self)) rfl
      have stays : ∀ d ∈ rest, d ∈ s.waiting.filter (· ≠ c) := by
        intro d mem
        have other : d ≠ c := by
          rintro rfl
          exact absent mem
        simpa using ⟨there d (List.mem_cons_of_mem c mem), other⟩
      have later := ih left others stays
      simpa [List.filter_filter, Bool.and_comm] using later

/-- A call that arrives waits behind a pass that runs, has the first pass begin, or is answered from
the catalog that is kept. -/
theorem Run.arrives {s : Session ι} {c : ι} (manned : s.Manned (Discovery.pass m.mode))
    (run : Run m ask h (resting s)) (unlike : c ∉ calls h) :
    let arrived := s.arrive (Discovery.pass m.mode) c
    ∃ new, Run m ask (h ++ new) (resting arrived.1) ∧ Settling m ask [c] arrived.2 new := by
  have arrived : Run m ask (h ++ [.arrived c]) ⟨⟨s.kept, none, s.line ++ [c]⟩, false⟩ := by
    refine .step run (.arrive c) fun b mem => ?_
    cases List.mem_singleton.1 mem
    exact unlike
  have only : Settling m ask [c] [] [.arrived c] := ⟨rfl, rfl, rfl, by simp [Moment.spoken]⟩
  rcases s with ⟨kept, running, waiting⟩
  cases running with
  | some runner =>
      have empty : kept = none := manned.empty (by simp)
      subst empty
      exact ⟨[.arrived c], by simpa [arrive, resting, line] using arrived, only⟩
  | none =>
      have nobody : waiting = [] := manned.nobody rfl
      subst nobody
      cases kept with
      | none =>
          exact ⟨[.arrived c], by simpa [arrive, resting, line] using arrived, only⟩
      | some catalog =>
          refine ⟨[.arrived c, .returned c (m.answer catalog (ask c))], ?_, ?_⟩
          · simpa [arrive, resting, line] using arrived.answers
          · exact ⟨rfl, rfl, rfl, by simp [Moment.spoken]⟩

/-- What a session concludes from the end of a pass is what a run may show after it. -/
theorem Run.concludes {s : Session ι} {c : ι} {log : List Exchange}
    {outcome : Except Error Catalog} (empty : s.kept = none)
    (run : Run m ask h ⟨⟨none, none, c :: s.waiting⟩, false⟩)
    (ends : (Discovery.pass m.mode).result? log = some outcome) :
    let concluded := s.conclude (Discovery.pass m.mode) c outcome
    ∃ last, Run m ask (h ++ holding c log last) (resting concluded.1) ∧
      Settling m ask [] concluded.2 last := by
  cases outcome with
  | ok catalog =>
      rcases Option.bind_eq_some_iff.1 ends with ⟨left, follows, done⟩
      have settled := (run.begins.converse follows).settles done
      refine ⟨.ended c (.ok catalog) :: (c :: s.waiting).map fun b =>
        .returned b (m.answer catalog (ask b)), ?_, ?_, ?_, ?_, ?_⟩
      · simpa [conclude, resting, line, holding] using settled
      · simp [calls]
      · simp [returns, told, conclude, List.filterMap_map, Function.comp_def, bind, Except.bind]
      · simp [leavers]
      · simp [Moment.spoken]
  | error e =>
      have failed := run.fails ends
      have rests : resting (s.advance (Discovery.pass m.mode)) =
          ⟨⟨none, none, s.waiting⟩, false⟩ := by
        rw [resting, kept_advance, empty, line_advance]
      refine ⟨[.ended c (.error e), .returned c (.error e)], ?_, rfl, rfl, rfl, ?_⟩
      · rw [← rests] at failed
        exact failed
      · simp [Moment.spoken]

/-- While a request gets no reply, some of those in line give up. When the caller of the pass is
among them, the pass is forgotten; otherwise its request stays under way. -/
theorem Run.gives_up {waiting : List ι} {c : ι} {d : Dialogue Catalog} (gone : ι → Bool)
    (run : Run m ask h ⟨⟨none, some (c, d), waiting⟩, true⟩) :
    ∃ left, Run m ask (h ++ ((c :: waiting).filter gone).map .abandoned) left ∧
      left.kept = none ∧ left.line = (c :: waiting).filter (!gone ·) ∧
      if gone c then left = ⟨⟨none, none, (c :: waiting).filter (!gone ·)⟩, false⟩
      else left.asked = true := by
  have once : (waiting.filter gone).Nodup := (List.nodup_cons.1 (run_queue run).once).2.filter _
  have there : ∀ b ∈ waiting.filter gone, b ∈ waiting := fun b mem => (List.mem_filter.1 mem).1
  -- those who stay do not depend on the order in which the others leave
  have stay : waiting.filter (· ∉ waiting.filter gone) = waiting.filter (!gone ·) := by
    refine List.filter_congr fun b mem => ?_
    simp [mem]
  by_cases own : gone c = true
  · have left := (run.go (.drop rfl) rfl).leaves once there
    dsimp only at left
    rw [stay] at left
    refine ⟨⟨⟨none, none, waiting.filter (!gone ·)⟩, false⟩, ?_, rfl, ?_, ?_⟩
    · simpa [own] using left
    · simp [own, line]
    · simp [own]
  · have left := run.leaves once there
    dsimp only at left
    rw [stay] at left
    refine ⟨⟨⟨none, some (c, d), waiting.filter (!gone ·)⟩, true⟩, ?_, rfl, ?_, ?_⟩
    · simpa [own] using left
    · simp [own, line]
    · simp [own]

end Session
end ApiCatalog
