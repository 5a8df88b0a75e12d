import ApiCatalog.Mapper
import ApiCatalog.Session

/-!
# Tasks

Queries to a mapper that are made together, and parts of a task that are given up when nothing
goes on.

- `Task.callers`  : the queries of a task, by their places in it
- `Task.withdraw` : what is given up at a standstill
- `Task.run`      : a task carried out against a service
-/

namespace ApiCatalog

inductive Task
  | query (q : Mapper.Query)
  | together (tasks : List Task)
  | cancellable (task : Task)

instance : Inhabited Task :=
  ⟨.together []⟩

/-- The place of a part within a task. -/
abbrev Place := List Nat

namespace Task

/-! ## Callers -/

mutual

def callersAt (place : Place) : Task → List Place
  | .query _ => [place]
  | .together tasks => callersFrom place 0 tasks
  | .cancellable task => callersAt (place ++ [0]) task

def callersFrom (place : Place) (n : Nat) : List Task → List Place
  | [] => []
  | task :: rest => callersAt (place ++ [n]) task ++ callersFrom place (n + 1) rest

end

/-- The places of the queries, in order. -/
def callers (t : Task) : List Place :=
  callersAt [] t

/-! ## Results -/

inductive Result
  | answered (answer : Except Error Mapper.Answer)
  | cancelled
  | together (results : List Result)

instance : Inhabited Result :=
  ⟨.cancelled⟩

/-- Callers that are settled, and the parts that were given up. -/
structure Progress where
  settled : List (Session.Settled Place)
  dropped : List Place

mutual

/-- Puts the results together. A query that was never settled counts as cancelled. -/
def resultAt (m : Mapper) (p : Progress) (place : Place) : Task → Result
  | .query q =>
      match p.settled.lookup place with
      | some (.ok catalog) => .answered (m.answer catalog q)
      | some (.error e) => .answered (.error e)
      | none => .cancelled
  | .together tasks => .together (resultsFrom m p place 0 tasks)
  | .cancellable task =>
      if p.dropped.contains place then .cancelled else resultAt m p (place ++ [0]) task

def resultsFrom (m : Mapper) (p : Progress) (place : Place) (n : Nat) : List Task → List Result
  | [] => []
  | task :: rest => resultAt m p (place ++ [n]) task :: resultsFrom m p place (n + 1) rest

end

/-! ## Standstills -/

/-- A session that stands still, since the pass of `stalled` gets no reply, with the parts that
were given up and the events. -/
structure Standstill where
  stalled : Place
  session : Session Place
  dropped : List Place
  events : List Event

/-- A query whose turn came when others withdrew begins its pass, up to the first request. -/
def Standstill.begin (s : Standstill) (place : Place) : Standstill :=
  match s.session.running with
  | some (c, d) =>
      if c = place ∧ c ≠ s.stalled then
        { s with
          session := { s.session with running := some (c, d.opened) },
          events := s.events ++ d.opening }
      else s
  | none => s

/-- A part gives up the callers that it has in line. With none in line it has its result, and is
not given up itself. -/
def Standstill.drop (pass : Dialogue Catalog) (s : Standstill) (place : Place) : Standstill :=
  match s.session.line.filter (place.isPrefixOf ·) with
  | [] => s
  | cs =>
      { s with session := s.session.abandonAll pass cs, dropped := s.dropped ++ [place] }

/-- Whoever stays in line stands outside of the part. -/
theorem Standstill.line_drop (pass : Dialogue Catalog) (s : Standstill) (place : Place) :
    (s.drop pass place).session.line = s.session.line.filter (!place.isPrefixOf ·) := by
  unfold drop
  split
  · next none =>
      refine (List.filter_eq_self.2 fun c mem => ?_).symm
      simp only [Bool.not_eq_true', Bool.eq_false_iff]
      exact List.filter_eq_nil_iff.1 none c mem
  · next cs _ =>
      rw [Session.line_abandonAll]
      refine List.filter_congr fun c mem => ?_
      simp only [List.mem_filter, mem, true_and]
      cases place.isPrefixOf c <;> rfl

mutual

/-- Goes through a part at a standstill, in order and from the inside: every cancellable part in it
is given up. -/
def withdrawAt (pass : Dialogue Catalog) (place : Place) : Task → Standstill → Standstill
  | .query _, s => s.begin place
  | .together tasks, s => withdrawFrom pass place 0 tasks s
  | .cancellable task, s => (withdrawAt pass (place ++ [0]) task s).drop pass place

def withdrawFrom (pass : Dialogue Catalog) (place : Place) (n : Nat) :
    List Task → Standstill → Standstill
  | [], s => s
  | task :: rest, s =>
      withdrawFrom pass place (n + 1) rest (withdrawAt pass (place ++ [n]) task s)

end

/-- Gives up all that can be given up. -/
def withdraw (pass : Dialogue Catalog) (t : Task) (s : Standstill) : Standstill :=
  withdrawAt pass [] t s

/-! ## Carrying out -/

/-- A task under way against a service in state `service`. -/
structure Run (σ : Type) where
  session : Session Place
  progress : Progress
  service : σ
  events : List Event

/-- Every query arrives, in order. -/
def arriveAll (pass : Dialogue Catalog) (s : Session Place) (cs : List Place) :
    Session Place × List (Session.Settled Place) :=
  cs.foldl
    (fun (s, settled) c =>
      let (s', more) := s.arrive pass c
      (s', settled ++ more))
    (s, [])

/-- Holds the running pass to its end and goes on with the next caller, until none is left. When a
pass stalls, the task gives up what it can; a caller that is not given up then is waited for in
vain. Each round settles or drops a caller, so `fuel` is their number. -/
def drive {σ : Type} (serve : Dialogue.Service σ) (pass : Dialogue Catalog) (t : Task) :
    Nat → Run σ → Run σ
  | 0, run => run
  | fuel + 1, run =>
      match run.session.running with
      | none => run
      | some (c, d) =>
          let held := d.against serve run.service
          let events := run.events ++ held.events
          let conclude (outcome : Except Error Catalog) : Run σ :=
            let (session, settled) := run.session.conclude pass c outcome
            ⟨session, { run.progress with settled := run.progress.settled ++ settled },
              held.service, events⟩
          match held.outcome with
          | .done catalog => drive serve pass t fuel (conclude (.ok catalog))
          | .failed e => drive serve pass t fuel (conclude (.error e))
          | .stalled =>
              let s := withdraw pass t ⟨c, run.session, run.progress.dropped, events⟩
              let left : Run σ :=
                ⟨s.session, { run.progress with dropped := s.dropped }, held.service, s.events⟩
              if c ∈ s.session.line then left else drive serve pass t fuel left

/-- Carries out a task; `kept` is the catalog from before, if there is one. Gives the result, the
catalog to keep, the service and the events. -/
def run {σ : Type} (serve : Dialogue.Service σ) (m : Mapper) (kept : Option Catalog) (s : σ)
    (t : Task) : Result × Option Catalog × σ × List Event :=
  let pass := Discovery.pass m.mode
  let cs := t.callers
  let (session, settled) := arriveAll pass { Session.fresh with kept := kept } cs
  let run := drive serve pass t cs.length ⟨session, ⟨settled, []⟩, s, []⟩
  (resultAt m run.progress [] t, run.session.kept, run.service, run.events)

end Task
end ApiCatalog
