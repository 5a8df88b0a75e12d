import Mathlib.Data.List.Nodup
import ApiCatalog.Task
import ApiCatalog.Proofs.Session.Rounds

/-!
# Seats of a task

The queries of a task sit at different places, and each may stand within a part that can be given
up. With the seats, all that a task makes of its queries can be read off a history of the session
that they share.

- `Task.seats`              : the queries, with their places and the parts around them
- `Task.nodup_callersAt`    : no two queries sit at one place
- `Task.read`               : the results that a history shows
- `Task.resultAt_eq_readAt` : the results that are put together are those that are read off
-/

namespace ApiCatalog
namespace Task

open Session (Moment leavers returns told)

/-! ## Places -/

mutual

theorem isPrefix_of_mem_callersAt {place p : Place} {task : Task} (mem : p ∈ callersAt place task) :
    place <+: p := by
  cases task with
  | query q =>
      cases List.mem_singleton.1 mem
      exact List.prefix_rfl
  | together tasks =>
      rcases isPrefix_of_mem_callersFrom mem with ⟨k, -, inside⟩
      exact (List.prefix_append place [k]).trans inside
  | cancellable task => exact (List.prefix_append place [0]).trans (isPrefix_of_mem_callersAt mem)

theorem isPrefix_of_mem_callersFrom {place p : Place} {n : Nat} {tasks : List Task}
    (mem : p ∈ callersFrom place n tasks) : ∃ k ≥ n, place ++ [k] <+: p := by
  cases tasks with
  | nil => cases mem
  | cons task rest =>
      rcases List.mem_append.1 mem with here | later
      · exact ⟨n, Nat.le_refl n, isPrefix_of_mem_callersAt here⟩
      · rcases isPrefix_of_mem_callersFrom later with ⟨k, above, inside⟩
        exact ⟨k, Nat.le_of_succ_le above, inside⟩

end

/-- Siblings have no place in common. -/
theorem eq_of_isPrefix {place p : Place} {j k : Nat} (first : place ++ [j] <+: p)
    (second : place ++ [k] <+: p) : j = k := by
  have same : place ++ [j] = place ++ [k] :=
    (List.prefix_of_prefix_length_le first second (by simp)).eq_of_length (by simp)
  simpa using same

section Siblings

variable {place p : Place} {n k : Nat} {task : Task} {rest : List Task}

/-- A query of one sibling is none of those behind it. -/
theorem not_mem_callersFrom (mem : p ∈ callersAt (place ++ [n]) task) :
    p ∉ callersFrom place (n + 1) rest := by
  intro later
  rcases isPrefix_of_mem_callersFrom later with ⟨k, above, inside⟩
  have same := eq_of_isPrefix (isPrefix_of_mem_callersAt mem) inside
  omega

/-- The place of a query tells whether it is one of the first sibling, -/
theorem mem_first_of_isPrefix (mem : p ∈ callersFrom place n (task :: rest))
    (inside : place ++ [n] <+: p) : p ∈ callersAt (place ++ [n]) task := by
  rcases List.mem_append.1 mem with here | later
  · exact here
  · rcases isPrefix_of_mem_callersFrom later with ⟨k, above, elsewhere⟩
    have same := eq_of_isPrefix inside elsewhere
    omega

/-- or one of those behind it. -/
theorem mem_rest_of_isPrefix (mem : p ∈ callersFrom place n (task :: rest)) (above : n < k)
    (inside : place ++ [k] <+: p) : p ∈ callersFrom place (n + 1) rest := by
  rcases List.mem_append.1 mem with here | later
  · have same := eq_of_isPrefix (isPrefix_of_mem_callersAt here) inside
    omega
  · exact later

end Siblings

mutual

theorem nodup_callersAt (place : Place) (task : Task) : (callersAt place task).Nodup := by
  cases task with
  | query q => exact List.nodup_singleton place
  | together tasks => exact nodup_callersFrom place 0 tasks
  | cancellable task => exact nodup_callersAt (place ++ [0]) task

theorem nodup_callersFrom (place : Place) (n : Nat) (tasks : List Task) :
    (callersFrom place n tasks).Nodup := by
  cases tasks with
  | nil => exact List.nodup_nil
  | cons task rest =>
      apply List.Nodup.append (nodup_callersAt (place ++ [n]) task)
        (nodup_callersFrom place (n + 1) rest)
      intro p here later
      exact not_mem_callersFrom here later

end

/-! ## Seats -/

/-- A query in its place, and the innermost part around it that can be given up. -/
structure Seat where
  place : Place
  within : Option Place
  query : Mapper.Query

/-- A seat of a part that can be given up. -/
def Seat.inside (part : Place) (x : Seat) : Seat :=
  { x with within := some (x.within.getD part) }

mutual

def seatsAt (place : Place) : Task → List Seat
  | .query q => [⟨place, none, q⟩]
  | .together tasks => seatsFrom place 0 tasks
  | .cancellable task => (seatsAt (place ++ [0]) task).map (·.inside place)

def seatsFrom (place : Place) (n : Nat) : List Task → List Seat
  | [] => []
  | task :: rest => seatsAt (place ++ [n]) task ++ seatsFrom place (n + 1) rest

end

def seats (t : Task) : List Seat :=
  seatsAt [] t

mutual

theorem map_place_seatsAt (place : Place) (task : Task) :
    (seatsAt place task).map Seat.place = callersAt place task := by
  cases task with
  | query q => rfl
  | together tasks => exact map_place_seatsFrom place 0 tasks
  | cancellable task =>
      have same := map_place_seatsAt (place ++ [0]) task
      simpa [seatsAt, callersAt, Function.comp_def, Seat.inside] using same

theorem map_place_seatsFrom (place : Place) (n : Nat) (tasks : List Task) :
    (seatsFrom place n tasks).map Seat.place = callersFrom place n tasks := by
  cases tasks with
  | nil => rfl
  | cons task rest =>
      simp [seatsFrom, callersFrom, map_place_seatsAt (place ++ [n]) task,
        map_place_seatsFrom place (n + 1) rest]

end

/-- A seat is known by its place. -/
theorem eq_of_place_eq {place : Place} {task : Task} {x y : Seat} (hx : x ∈ seatsAt place task)
    (hy : y ∈ seatsAt place task) (same : x.place = y.place) : x = y := by
  have once : ((seatsAt place task).map Seat.place).Nodup := by
    simpa [map_place_seatsAt] using nodup_callersAt place task
  exact List.inj_on_of_nodup_map once hx hy same

/-- The query at a place. -/
def ask (t : Task) (place : Place) : Mapper.Query :=
  ((t.seats.find? (·.place = place)).map Seat.query).getD .size

theorem ask_of_mem_seats {t : Task} {x : Seat} (mem : x ∈ t.seats) : t.ask x.place = x.query := by
  cases found : t.seats.find? (·.place = x.place) with
  | none =>
      have absent := List.find?_eq_none.1 found x mem
      simp at absent
  | some y =>
      have there : y.place = x.place := by simpa using List.find?_some found
      have same : y = x := eq_of_place_eq (List.mem_of_find?_eq_some found) mem there
      simp [ask, found, same]

/-! ## Results of a history -/

/-- The parts that were given up: a caller that gives up does so with the innermost part around
it. -/
def givenUp (t : Task) (h : List (Moment Place)) : List Place :=
  t.seats.filterMap fun x => if (leavers h).contains x.place then x.within else none

theorem mem_givenUp {t : Task} {h : List (Moment Place)} {part : Place} :
    part ∈ t.givenUp h ↔ ∃ x ∈ t.seats, x.within = some part ∧ x.place ∈ leavers h := by
  have kept (x : Seat) : (if (leavers h).contains x.place then x.within else none) = some part ↔
      x.within = some part ∧ x.place ∈ leavers h := by
    by_cases left : x.place ∈ leavers h
    · simp [left]
    · simp [left]
  simp only [givenUp, List.mem_filterMap, kept]

mutual

def readAt (h : List (Moment Place)) (gone : List Place) (place : Place) : Task → Result
  | .query _ =>
      match (returns h).lookup place with
      | some answer => .answered answer
      | none => .cancelled
  | .together tasks => .together (readFrom h gone place 0 tasks)
  | .cancellable task =>
      if gone.contains place then .cancelled else readAt h gone (place ++ [0]) task

def readFrom (h : List (Moment Place)) (gone : List Place) (place : Place) (n : Nat) :
    List Task → List Result
  | [] => []
  | task :: rest => readAt h gone (place ++ [n]) task :: readFrom h gone place (n + 1) rest

end

/-- What a history shows of a task: a query has what its caller returned with, and a part that was
given up has nothing. -/
def read (t : Task) (h : List (Moment Place)) : Result :=
  readAt h (t.givenUp h) [] t

section Reading

variable {m : Mapper} {ask : Place → Mapper.Query} {h : List (Moment Place)} {p : Progress}
  {gone : List Place}

theorem lookup_told (settled : List (Session.Settled Place)) (place : Place) :
    (settled.map (told m ask)).lookup place =
      (settled.lookup place).map fun outcome => outcome >>= (m.answer · (ask place)) := by
  induction settled with
  | nil => rfl
  | cons x rest ih =>
      rcases x with ⟨c, outcome⟩
      by_cases here : place = c
      · simp [here, told]
      · have other : (place == c) = false := by simpa using here
        simp only [List.map_cons, List.lookup_cons, told, other]
        exact ih

mutual

/-- What is put together from callers that are settled and parts that were given up is what a
history shows in which they return and give up. -/
theorem resultAt_eq_readAt (returned : returns h = p.settled.map (told m ask))
    (dropped : ∀ part, part ∈ p.dropped ↔ part ∈ gone) (place : Place) (task : Task)
    (asks : ∀ x ∈ seatsAt place task, ask x.place = x.query) :
    resultAt m p place task = readAt h gone place task := by
  cases task with
  | query q =>
      have asked : ask place = q := asks ⟨place, none, q⟩ List.mem_cons_self
      simp only [resultAt, readAt, returned, lookup_told, asked]
      cases p.settled.lookup place with
      | none => rfl
      | some outcome =>
          cases outcome with
          | error e => rfl
          | ok catalog => rfl
  | together tasks =>
      exact congrArg Result.together (resultsFrom_eq_readFrom returned dropped place 0 tasks asks)
  | cancellable task =>
      have inner : resultAt m p (place ++ [0]) task = readAt h gone (place ++ [0]) task :=
        resultAt_eq_readAt returned dropped (place ++ [0]) task fun x mem =>
          asks (x.inside place) (List.mem_map_of_mem mem)
      simp [resultAt, readAt, inner, dropped]

theorem resultsFrom_eq_readFrom (returned : returns h = p.settled.map (told m ask))
    (dropped : ∀ part, part ∈ p.dropped ↔ part ∈ gone) (place : Place) (n : Nat)
    (tasks : List Task) (asks : ∀ x ∈ seatsFrom place n tasks, ask x.place = x.query) :
    resultsFrom m p place n tasks = readFrom h gone place n tasks := by
  cases tasks with
  | nil => rfl
  | cons task rest =>
      have first := resultAt_eq_readAt returned dropped (place ++ [n]) task fun x mem =>
        asks x (List.mem_append_left _ mem)
      have others := resultsFrom_eq_readFrom returned dropped place (n + 1) rest fun x mem =>
        asks x (List.mem_append_right _ mem)
      simp [resultsFrom, readFrom, first, others]

end

end Reading

end Task
end ApiCatalog
