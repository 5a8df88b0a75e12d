import ApiCatalog.Proofs.Discovery.Pass
import ApiCatalog.Proofs.Session.Passes

/-!
# Schedules that sessions follow

The operations of `Session` settle who runs next: the first in line. Whatever arrives, is replied or
is given up, and in whatever order, a session so operated shows a history of a run, and its settled
callers are those that return in it.

- `Session.Run.converse`     : a pass may be held to any point that its exchanges lead to
- `Session.Run.settles`      : a pass that completes may settle everybody in line
- `Session.Happening`        : what happens to a session from outside
- `Session.Realizes`         : a history that an operated session shows
- `Session.exists_realizes`  : every sequence of happenings has one
-/

namespace ApiCatalog
namespace Session

open Discovery (rootRequest pending?_pass)

variable {ι : Type}

/-- The callers that returned, with what they returned. -/
def returns (h : List (Moment ι)) : List (ι × Except Error Mapper.Answer) :=
  h.filterMap fun
    | .returned c result => some (c, result)
    | _ => none

@[simp]
theorem returns_append (h new : List (Moment ι)) : returns (h ++ new) = returns h ++ returns new :=
  List.filterMap_append

variable [DecidableEq ι] {m : Mapper} {ask : ι → Mapper.Query} {h new : List (Moment ι)}

/-! ## Longer runs -/

theorem filter_ne_eq_self {c : ι} {waiting : List ι} (absent : c ∉ waiting) :
    waiting.filter (· ≠ c) = waiting := by
  refine List.filter_eq_self.2 fun b mem => ?_
  have other : b ≠ c := by
    rintro rfl
    exact absent mem
  simpa using other

/-- The first in line leaves, and the others stay as they stand. -/
theorem filter_ne_cons {c : ι} {rest : List ι} (once : (c :: rest).Nodup) :
    (c :: rest).filter (· ≠ c) = rest := by
  rw [List.filter_cons_of_neg (by simp), filter_ne_eq_self (List.nodup_cons.1 once).1]

/-- A step without an arrival. -/
theorem Run.go {s s' : Sharing ι} (run : Run m ask h s) (step : Step m ask s new s')
    (quiet : calls new = []) : Run m ask (h ++ new) s' := by
  refine .step run step fun c arrives => ?_
  have mem := mem_calls.2 arrives
  rw [quiet] at mem
  cases mem

/-- The first in line may begin a pass. -/
theorem Run.begins {c : ι} {rest : List ι} (run : Run m ask h ⟨⟨none, none, c :: rest⟩, false⟩) :
    Run m ask (h ++ [.began c]) ⟨⟨none, some (c, Discovery.pass m.mode), rest⟩, false⟩ := by
  have began := run.go (.begin rfl rfl List.mem_cons_self) rfl
  dsimp only at began
  rw [filter_ne_cons (run_queue run).once] at began
  exact began

/-- The moments of exchanges. -/
def exchanged (c : ι) (log : List Exchange) : List (Moment ι) :=
  log.flatMap fun x => [.asked c x.1, .replied c x.2]

/-- A running pass may go on along any exchanges of its own. -/
theorem Run.converse {kept : Option Catalog} {waiting : List ι} {c : ι} {d left : Dialogue Catalog}
    {log : List Exchange} (run : Run m ask h ⟨⟨kept, some (c, d), waiting⟩, false⟩)
    (follows : d.follow log = some left) :
    Run m ask (h ++ exchanged c log) ⟨⟨kept, some (c, left), waiting⟩, false⟩ := by
  induction log generalizing h d with
  | nil =>
      cases follows
      simpa [exchanged] using run
  | cons x rest ih =>
      unfold Dialogue.follow at follows
      split at follows
      · next waits =>
          have asked := run.go (.ask rfl waits rfl) rfl
          have replied := asked.go (.reply rfl rfl x.2) rfl
          have later := ih replied follows
          simpa [exchanged] using later
      · cases follows

/-- The first in line may hold a pass to its end: it completes, -/
theorem Run.completes {c : ι} {rest : List ι} {log : List Exchange} {catalog : Catalog}
    (run : Run m ask h ⟨⟨none, none, c :: rest⟩, false⟩)
    (ends : (Discovery.pass m.mode).result? log = some (.ok catalog)) :
    Run m ask (h ++ .began c :: (exchanged c log ++ [.ended c (.ok catalog)]))
      ⟨⟨some catalog, none, rest ++ [c]⟩, false⟩ := by
  rcases Option.bind_eq_some_iff.1 ends with ⟨left, follows, done⟩
  have held := (run.begins).converse follows
  simpa using held.go (.complete rfl done) rfl

/-- or it fails. -/
theorem Run.fails {c : ι} {rest : List ι} {log : List Exchange} {e : Error}
    (run : Run m ask h ⟨⟨none, none, c :: rest⟩, false⟩)
    (ends : (Discovery.pass m.mode).result? log = some (.error e)) :
    Run m ask (h ++ .began c :: (exchanged c log ++ [.ended c (.error e), .returned c (.error e)]))
      ⟨⟨none, none, rest⟩, false⟩ := by
  rcases Option.bind_eq_some_iff.1 ends with ⟨left, follows, failed⟩
  have held := (run.begins).converse follows
  simpa using held.go (.fail rfl failed) rfl

/-- Callers that wait may be answered in turn. -/
theorem Run.answers {catalog : Catalog} {waiting : List ι}
    (run : Run m ask h ⟨⟨some catalog, none, waiting⟩, false⟩) :
    Run m ask (h ++ waiting.map fun c => .returned c (m.answer catalog (ask c)))
      ⟨⟨some catalog, none, []⟩, false⟩ := by
  induction waiting generalizing h with
  | nil => simpa using run
  | cons c rest ih =>
      have answered := run.go (.answer rfl List.mem_cons_self) rfl
      dsimp only at answered
      rw [filter_ne_cons (run_queue run).once] at answered
      simpa using ih answered

/-- The caller of a pass that completes may be answered first, and those that wait after it. -/
theorem Run.settles {waiting : List ι} {c : ι} {d : Dialogue Catalog} {catalog : Catalog}
    (run : Run m ask h ⟨⟨none, some (c, d), waiting⟩, false⟩)
    (ends : d.ending? = some (.ok catalog)) :
    Run m ask (h ++ .ended c (.ok catalog) ::
        (c :: waiting).map fun b => .returned b (m.answer catalog (ask b)))
      ⟨⟨some catalog, none, []⟩, false⟩ := by
  have once : (c :: waiting).Nodup := (run_queue run).once
  have others : (waiting ++ [c]).filter (· ≠ c) = waiting := by
    rw [List.filter_append, filter_ne_eq_self (List.nodup_cons.1 once).1]
    simp
  have completed := run.go (.complete rfl ends) rfl
  have last : c ∈ waiting ++ [c] := by simp
  have first := completed.go (.answer rfl last) rfl
  dsimp only at first
  rw [others] at first
  simpa using first.answers

/-! ## Happenings -/

/-- What happens to a session from outside. -/
inductive Happening (ι : Type)
  | arrive (c : ι)
  | reply (r : Reply)
  | abandon (c : ι)

/-- The call that a happening is the arrival of. -/
def Happening.arrival? : Happening ι → Option ι
  | .arrive c => some c
  | _ => none

/-- The session after a happening, and who is settled by it. -/
def happen (pass : Dialogue Catalog) (s : Session ι) : Happening ι → Session ι × List (Settled ι)
  | .arrive c => s.arrive pass c
  | .reply r => s.reply pass r
  | .abandon c => (s.abandon pass c, [])

def happenAll (pass : Dialogue Catalog) (s : Session ι) :
    List (Happening ι) → Session ι × List (Settled ι)
  | [] => (s, [])
  | x :: rest =>
      let (next, settled) := happen pass s x
      let (last, others) := happenAll pass next rest
      (last, settled ++ others)

/-- What a settled caller returns: its own error, or the answer from its catalog. -/
def told (m : Mapper) (ask : ι → Mapper.Query) (x : Settled ι) : ι × Except Error Mapper.Answer :=
  (x.1, x.2 >>= fun catalog => m.answer catalog (ask x.1))

/-! ## Realization -/

/-- The session shows `h`: its pass waits for a reply, and nobody waits for a pass to begin. -/
structure Realizes (m : Mapper) (ask : ι → Mapper.Query) (h : List (Moment ι)) (s : Session ι) :
    Prop where
  run : Run m ask h ⟨s, s.running.isSome⟩
  pending : ∀ c d, s.running = some (c, d) → d.pending? ≠ none
  nobody : s.running = none → s.waiting = []

namespace Realizes

variable {s : Session ι}

theorem fresh : Realizes m ask ([] : List (Moment ι)) Session.fresh :=
  ⟨.fresh, (fun _ _ runs => by cases runs), fun _ => rfl⟩

/-- With the cell empty and no pass under way, the next in line begins a pass and asks. -/
theorem advance {waiting : List ι} (run : Run m ask h ⟨⟨none, none, waiting⟩, false⟩)
    (running : Option (ι × Dialogue Catalog)) :
    ∃ new, calls new = [] ∧ returns new = [] ∧
      Realizes m ask (h ++ new)
        (Session.advance (Discovery.pass m.mode) ⟨none, running, waiting⟩) := by
  cases waiting with
  | nil =>
      refine ⟨[], rfl, rfl, ?_⟩
      rw [List.append_nil]
      exact ⟨run, (fun _ _ runs => by cases runs), fun _ => rfl⟩
  | cons c rest =>
      -- every pass has a first request, so it is never over as soon as it begins
      have asked := run.begins.go (.ask rfl (pending?_pass m.mode) rfl) rfl
      rw [List.append_assoc] at asked
      refine ⟨[.began c, .asked c (rootRequest .api)], rfl, rfl, asked, ?_, ?_⟩
      · intro b d runs
        cases runs
        simp [pending?_pass]
      · intro idle
        cases idle

theorem arrive (r : Realizes m ask h s) {c : ι} (unlike : c ∉ calls h) :
    ∃ new, calls new = [c] ∧
      returns new = (s.arrive (Discovery.pass m.mode) c).2.map (told m ask) ∧
      Realizes m ask (h ++ new) (s.arrive (Discovery.pass m.mode) c).1 := by
  have arrived : Run m ask (h ++ [.arrived c])
      ⟨{ s with waiting := s.waiting ++ [c] }, s.running.isSome⟩ := by
    refine .step r.run (.arrive c) fun b mem => ?_
    cases List.mem_singleton.1 mem
    exact unlike
  rcases s with ⟨kept, running, waiting⟩
  cases running with
  | some runner =>
      rcases runner with ⟨b, d⟩
      -- a pass runs, so the call waits behind it and shows nothing else
      have empty : kept = none := ((run_passes r.run).running b d rfl).1
      subst empty
      exact ⟨[.arrived c], rfl, rfl, arrived, r.pending, fun idle => by cases idle⟩
  | none =>
      have none_waits : waiting = [] := r.nobody rfl
      subst none_waits
      cases kept with
      | none =>
          rcases advance arrived none with ⟨new, no_call, no_return, begun⟩
          refine ⟨.arrived c :: new, ?_, no_return, ?_⟩
          · exact congrArg (c :: ·) no_call
          · rw [List.append_cons]
            exact begun
      | some catalog =>
          have answered := arrived.answers
          refine ⟨[.arrived c, .returned c (m.answer catalog (ask c))], rfl, rfl, ?_⟩
          rw [List.append_cons]
          exact ⟨answered, r.pending, fun _ => rfl⟩

section Outcomes

variable {waiting : List ι} {c : ι} {d : Dialogue Catalog}
  (run : Run m ask h ⟨⟨none, some (c, d), waiting⟩, false⟩)

include run

/-- A pass that is not over sends its next request. -/
theorem continues (going : d.ending? = none) :
    ∃ request, Realizes m ask (h ++ [.asked c request]) ⟨none, some (c, d), waiting⟩ := by
  cases pending : d.pending? with
  | none =>
      rcases Dialogue.ending?_isSome_of_pending? pending with ⟨outcome, ends⟩
      rw [going] at ends
      cases ends
  | some request =>
      refine ⟨request, run.go (.ask rfl pending rfl) rfl, ?_, ?_⟩
      · intro b left runs
        cases runs
        simp [pending]
      · intro idle
        cases idle

/-- With a pass that completes everybody is settled. -/
theorem completes {catalog : Catalog} (ends : d.ending? = some (.ok catalog)) :
    Realizes m ask (h ++ .ended c (.ok catalog) ::
        (c :: waiting).map fun b => .returned b (m.answer catalog (ask b)))
      ⟨some catalog, none, []⟩ :=
  ⟨run.settles ends, (fun _ _ runs => by cases runs), fun _ => rfl⟩

/-- The caller of a pass that fails is told its error, and the next in line begins a pass. -/
theorem fails {e : Error} (ends : d.ending? = some (.error e))
    (running : Option (ι × Dialogue Catalog)) :
    ∃ new, calls new = [] ∧ returns new = [] ∧
      Realizes m ask (h ++ .ended c (.error e) :: .returned c (.error e) :: new)
        (Session.advance (Discovery.pass m.mode) ⟨none, running, waiting⟩) := by
  have failed := run.go (.fail rfl ends) rfl
  rcases advance failed running with ⟨new, no_call, no_return, begun⟩
  exact ⟨new, no_call, no_return, by simpa using begun⟩

end Outcomes

theorem reply (r : Realizes m ask h s) (answer : Reply) :
    ∃ new, calls new = [] ∧
      returns new = (s.reply (Discovery.pass m.mode) answer).2.map (told m ask) ∧
      Realizes m ask (h ++ new) (s.reply (Discovery.pass m.mode) answer).1 := by
  rcases s with ⟨kept, running, waiting⟩
  cases running with
  | none => exact ⟨[], rfl, rfl, by rw [List.append_nil]; exact r⟩
  | some runner =>
      rcases runner with ⟨c, d⟩
      have empty : kept = none := ((run_passes r.run).running c d rfl).1
      subst empty
      have replied := r.run.go (.reply rfl rfl answer) rfl
      unfold Session.reply
      dsimp only
      -- what comes next is told by the pass with the reply
      cases ended : (d.resume answer).ending? with
      | none =>
          rcases continues replied ended with ⟨request, waits⟩
          rw [List.append_assoc] at waits
          exact ⟨[.replied c answer, .asked c request], rfl, rfl, waits⟩
      | some outcome =>
          cases outcome with
          | ok catalog =>
              have completed := completes replied ended
              rw [List.append_assoc] at completed
              refine ⟨_, ?_, ?_, completed⟩
              · simp [calls]
              · simp [returns, told, conclude, List.filterMap_map, Function.comp_def, bind,
                  Except.bind]
          | error e =>
              rcases fails replied ended (some (c, d)) with ⟨new, no_call, no_return, begun⟩
              rw [List.append_assoc] at begun
              refine ⟨.replied c answer :: .ended c (.error e) :: .returned c (.error e) :: new,
                no_call, ?_, begun⟩
              exact congrArg ((c, .error e) :: ·) no_return

theorem abandon (r : Realizes m ask h s) (c : ι) :
    ∃ new, calls new = [] ∧ returns new = [] ∧
      Realizes m ask (h ++ new) (s.abandon (Discovery.pass m.mode) c) := by
  rcases s with ⟨kept, running, waiting⟩
  -- a caller that does not run may wait, or it may be unknown
  have left (other : ∀ d, running ≠ some (c, d)) : ∃ new, calls new = [] ∧ returns new = [] ∧
      Realizes m ask (h ++ new) ⟨kept, running, waiting.filter (· ≠ c)⟩ := by
    by_cases waits : c ∈ waiting
    · refine ⟨[.abandoned c], rfl, rfl, r.run.go (.leave waits) rfl, r.pending, fun idle => ?_⟩
      have none_waits : waiting = [] := r.nobody idle
      simp [none_waits]
    · rw [filter_ne_eq_self waits]
      exact ⟨[], rfl, rfl, by rw [List.append_nil]; exact r⟩
  unfold Session.abandon
  cases running with
  | none => exact left (by simp)
  | some runner =>
      rcases runner with ⟨b, d⟩
      dsimp only
      by_cases own : b = c
      · subst own
        have empty : kept = none := ((run_passes r.run).running b d rfl).1
        subst empty
        have once : (b :: waiting).Nodup := (run_queue r.run).once
        -- its pass goes with it, and the next in line begins one
        have dropped := r.run.go (.drop rfl) rfl
        rcases advance dropped (some (b, d)) with ⟨new, no_call, no_return, begun⟩
        rw [if_pos rfl, filter_ne_eq_self (List.nodup_cons.1 once).1]
        exact ⟨.abandoned b :: new, no_call, no_return, by simpa using begun⟩
      · rw [if_neg own]
        exact left (by simp [own])

/-- What one happening adds to the history. -/
theorem happen (r : Realizes m ask h s) (x : Happening ι)
    (unlike : ∀ c, x.arrival? = some c → c ∉ calls h) :
    ∃ new, calls new = x.arrival?.toList ∧
      returns new = (happen (Discovery.pass m.mode) s x).2.map (told m ask) ∧
      Realizes m ask (h ++ new) (happen (Discovery.pass m.mode) s x).1 := by
  cases x with
  | arrive c => exact r.arrive (unlike c rfl)
  | reply answer => exact r.reply answer
  | abandon c => exact r.abandon c

/-- What happenings in a row add to the history. -/
theorem happenAll (r : Realizes m ask h s) (xs : List (Happening ι))
    (distinct : (xs.filterMap Happening.arrival?).Nodup)
    (unlike : ∀ c ∈ xs.filterMap Happening.arrival?, c ∉ calls h) :
    ∃ new, calls new = xs.filterMap Happening.arrival? ∧
      returns new = (happenAll (Discovery.pass m.mode) s xs).2.map (told m ask) ∧
      Realizes m ask (h ++ new) (happenAll (Discovery.pass m.mode) s xs).1 := by
  -- the history grows at its end while the session moves on
  induction xs generalizing h s with
  | nil => exact ⟨[], rfl, rfl, by rw [List.append_nil]; exact r⟩
  | cons x rest ih =>
      have arrivals : (x :: rest).filterMap Happening.arrival? =
          x.arrival?.toList ++ rest.filterMap Happening.arrival? := by
        cases arrives : x.arrival? <;> simp [arrives]
      rw [arrivals] at distinct unlike ⊢
      have first : ∀ c, x.arrival? = some c → c ∉ calls h := by
        intro c arrives
        exact unlike c (by simp [arrives])
      rcases r.happen x first with ⟨new, called, returned, shown⟩
      have others : ∀ c ∈ rest.filterMap Happening.arrival?, c ∉ calls (h ++ new) := by
        intro c mem
        rw [calls_append, called, List.mem_append, not_or]
        refine ⟨unlike c (List.mem_append_right _ mem), fun again => ?_⟩
        exact List.disjoint_of_nodup_append distinct again mem
      rcases ih shown distinct.of_append_right others with ⟨later, called', returned', shown'⟩
      refine ⟨new ++ later, ?_, ?_, ?_⟩
      · rw [calls_append, called, called']
      · rw [returns_append, returned, returned', Session.happenAll, List.map_append]
      · rw [← List.append_assoc]
        exact shown'

end Realizes

/-- Whatever happens to a fresh session whose callers are all different, it shows the history of a
run, and its settled callers are those that return in it, in the same order. -/
theorem exists_realizes (m : Mapper) (ask : ι → Mapper.Query) (xs : List (Happening ι))
    (distinct : (xs.filterMap Happening.arrival?).Nodup) :
    ∃ h, calls h = xs.filterMap Happening.arrival? ∧
      returns h = (happenAll (Discovery.pass m.mode) .fresh xs).2.map (told m ask) ∧
      Realizes m ask h (happenAll (Discovery.pass m.mode) .fresh xs).1 :=
  Realizes.fresh.happenAll xs distinct fun _ _ => by simp [calls]

/-! ## A run with a failure -/

/-- The exchanges of a pass that is refused at `api`. -/
def refusedLog : List Exchange :=
  [(rootRequest .api, .refused ⟨.other "down", []⟩)]

/-- Two calls: the pass of the first is refused, the pass of the second finds the logs of pods. -/
def retried (catalog : Catalog) : List (Moment Bool) :=
  [.arrived false, .arrived true] ++
    .began false :: (exchanged false refusedLog ++
      [.ended false (.error (.service "down")), .returned false (.error (.service "down"))]) ++
    .began true :: (exchanged true Discovery.podLog ++ [.ended true (.ok catalog)]) ++
    [.returned true (Mapper.default.answer catalog .size)]

theorem run_retried : ∃ catalog : Catalog,
    Run .default (fun _ : Bool => .size) (retried catalog) ⟨⟨some catalog, none, []⟩, false⟩ := by
  rcases Discovery.result?_podLog with ⟨registry, done⟩
  have refused : (Discovery.pass Mapper.default.mode).result? refusedLog =
      some (.error (.service "down")) := by
    rfl
  have first : Run .default (fun _ : Bool => .size) [.arrived false]
      ⟨⟨none, none, [false]⟩, false⟩ :=
    .step .fresh (.arrive false) (by simp [calls])
  have both : Run .default (fun _ : Bool => .size) [.arrived false, .arrived true]
      ⟨⟨none, none, [false, true]⟩, false⟩ :=
    .step first (.arrive true) (by simp [calls])
  exact ⟨_, ((both.fails refused).completes done).answers⟩

end Session
end ApiCatalog
