import ApiCatalog.Proofs.Task.Seats

/-!
# What is given up at a standstill

When a pass stalls, a task is gone through from the inside and every part that can be given up gives
up its callers. Whoever is in line at a seat within such a part leaves, nobody else does, and the
part that is given up is the innermost one around the seat.

- `Task.covered`            : the places within parts that can be given up
- `Task.Withdrawn`          : who left and what was given up
- `Task.withdrawn_withdraw` : the withdrawal of a whole task
-/

namespace ApiCatalog
namespace Task

variable {pass : Dialogue Catalog} {xs ys : List Seat} {s s' s'' : Standstill} {place p : Place}

/-! ## Withdrawals -/

/-- The places within parts that can be given up. -/
def covered (xs : List Seat) : List Place :=
  (xs.filter (·.within.isSome)).map Seat.place

theorem mem_covered : p ∈ covered xs ↔ ∃ x ∈ xs, x.within ≠ none ∧ x.place = p := by
  simp [covered, Option.isSome_iff_ne_none, and_assoc]

theorem covered_append (xs ys : List Seat) : covered (xs ++ ys) = covered xs ++ covered ys := by
  simp [covered]

/-- Around a part that can be given up, all its seats are covered. -/
theorem mem_covered_inside {part : Place} :
    p ∈ covered (xs.map (·.inside part)) ↔ p ∈ xs.map Seat.place := by
  simp [mem_covered, Seat.inside]

/-- With every seat at a place of its own, those outside of such parts are the others. -/
theorem not_mem_covered_iff (once : (xs.map Seat.place).Nodup) {x : Seat} (mem : x ∈ xs) :
    x.place ∉ covered xs ↔ x.within = none := by
  constructor
  · intro uncovered
    by_contra inner
    exact uncovered (mem_covered.2 ⟨x, mem, inner, rfl⟩)
  · intro alone covers
    rcases mem_covered.1 covers with ⟨y, other, inner, same⟩
    cases List.inj_on_of_nodup_map once other mem same
    exact inner alone

theorem Standstill.kept_drop : (s.drop pass place).session.kept = s.session.kept := by
  unfold drop
  split
  · rfl
  · exact Session.kept_abandonAll pass _ _

theorem Standstill.manned_drop (manned : s.session.Manned pass) :
    (s.drop pass place).session.Manned pass := by
  unfold drop
  split
  · exact manned
  · exact manned.abandonAll _

/-- A part that has callers in line is given up. -/
theorem Standstill.mem_dropped_drop {part : Place} :
    part ∈ (s.drop pass place).dropped ↔
      part ∈ s.dropped ∨ part = place ∧ ∃ p ∈ s.session.line, place <+: p := by
  unfold drop
  split
  · next none =>
      have nobody : ¬∃ p ∈ s.session.line, place <+: p := by
        simpa [List.filter_eq_nil_iff] using none
      simp [nobody]
  · next cs some =>
      have somebody : ∃ p ∈ s.session.line, place <+: p := by
        by_contra nobody
        exact some (by simpa [List.filter_eq_nil_iff] using nobody)
      simp [somebody]

/-- Those seats of `xs` that are covered have been withdrawn from the line, each with the innermost
part around it. -/
structure Withdrawn (pass : Dialogue Catalog) (xs : List Seat) (s s' : Standstill) : Prop where
  manned : s.session.Manned pass → s'.session.Manned pass
  kept : s'.session.kept = s.session.kept
  line : s'.session.line = s.session.line.filter (· ∉ covered xs)
  dropped : ∀ part, part ∈ s'.dropped ↔
    part ∈ s.dropped ∨ ∃ x ∈ xs, x.within = some part ∧ x.place ∈ s.session.line

namespace Withdrawn

theorem nil : Withdrawn pass [] s s :=
  ⟨id, rfl, by simp [covered], by simp⟩

theorem mem_line (w : Withdrawn pass xs s s') :
    p ∈ s'.session.line ↔ p ∈ s.session.line ∧ p ∉ covered xs := by
  simp [w.line]

/-- Siblings withdraw one after the other: none of them concerns the seats of another. -/
theorem append (first : Withdrawn pass xs s s') (second : Withdrawn pass ys s' s'')
    (apart : ∀ x ∈ xs, ∀ y ∈ ys, x.place ≠ y.place) : Withdrawn pass (xs ++ ys) s s'' where
  manned := second.manned ∘ first.manned
  kept := second.kept.trans first.kept
  line := by
    rw [second.line, first.line, List.filter_filter, covered_append]
    refine List.filter_congr fun p _ => ?_
    simp [Bool.and_comm]
  dropped part := by
    have still {y : Seat} (mem : y ∈ ys) :
        y.place ∈ s'.session.line ↔ y.place ∈ s.session.line := by
      rw [first.mem_line]
      refine and_iff_left fun elsewhere => ?_
      rcases mem_covered.1 elsewhere with ⟨x, there, -, same⟩
      exact apart x there y mem same
    have later : (∃ y ∈ ys, y.within = some part ∧ y.place ∈ s'.session.line) ↔
        ∃ y ∈ ys, y.within = some part ∧ y.place ∈ s.session.line := by
      refine exists_congr fun y => and_congr_right fun mem => ?_
      rw [still mem]
    rw [second.dropped, first.dropped, later, or_assoc]
    simp [or_and_right, exists_or]

/-- A part gives up what is in line of it when those within it have withdrawn. -/
theorem drop (w : Withdrawn pass xs s s') (once : (xs.map Seat.place).Nodup)
    (own : ∀ p ∈ s.session.line, place <+: p ↔ p ∈ xs.map Seat.place) :
    Withdrawn pass (xs.map (·.inside place)) s (s'.drop pass place) where
  manned manned := Standstill.manned_drop (w.manned manned)
  kept := Standstill.kept_drop.trans w.kept
  line := by
    rw [Standstill.line_drop, w.line, List.filter_filter]
    refine List.filter_congr fun p there => ?_
    have part : place.isPrefixOf p = decide (p ∈ xs.map Seat.place) := by
      rw [Bool.eq_iff_iff, List.isPrefixOf_iff_prefix, decide_eq_true_iff]
      exact own p there
    have inner : p ∈ covered xs → p ∈ xs.map Seat.place := by
      intro covers
      rcases mem_covered.1 covers with ⟨x, mem, -, rfl⟩
      exact List.mem_map_of_mem mem
    rw [part]
    by_cases here : p ∈ xs.map Seat.place
    · simp only [mem_covered_inside, here]
      rfl
    · simp only [mem_covered_inside, here, mt inner here]
      rfl
  dropped part := by
    rw [Standstill.mem_dropped_drop, w.dropped]
    constructor
    · rintro ((before | ⟨x, mem, inner, waits⟩) | ⟨rfl, p, stays, under⟩)
      · exact .inl before
      · exact .inr ⟨x.inside place, List.mem_map_of_mem mem, by simp [Seat.inside, inner], waits⟩
      · -- whoever is still in line here is in no part within this one
        rcases w.mem_line.1 stays with ⟨waits, uncovered⟩
        rcases List.mem_map.1 ((own p waits).1 under) with ⟨x, mem, rfl⟩
        have alone : x.within = none := (not_mem_covered_iff once mem).1 uncovered
        exact .inr ⟨x.inside part, List.mem_map_of_mem mem, by simp [Seat.inside, alone], waits⟩
    · rintro (before | ⟨_, around, same, waits⟩)
      · exact .inl (.inl before)
      · rcases List.mem_map.1 around with ⟨x, mem, rfl⟩
        cases inner : x.within with
        | some within =>
            have innermost : within = part := by simpa [Seat.inside, inner] using same
            exact .inl (.inr ⟨x, mem, innermost ▸ inner, waits⟩)
        | none =>
            have this_part : part = place := by simpa [Seat.inside, inner, eq_comm] using same
            have stays := w.mem_line.2 ⟨waits, (not_mem_covered_iff once mem).2 inner⟩
            have under := (own x.place waits).2 (List.mem_map_of_mem mem)
            exact .inr ⟨this_part, x.place, stays, under⟩

end Withdrawn

/-! ## The walk -/

/-- A query only begins its pass. -/
theorem Standstill.withdrawn_begin (s : Standstill) (place : Place) (q : Mapper.Query) :
    Withdrawn pass (seatsAt place (.query q)) s (s.begin place) := by
  unfold Standstill.begin
  split
  · next c d runs =>
      split
      · refine ⟨fun manned => ?_, rfl, ?_, by simp [seatsAt]⟩
        · have empty : s.session.kept = none := manned.empty (by simp [runs])
          have unasked : d.opened.opened = pass.opened := by
            simpa using manned.unasked c d runs
          exact Session.manned_of_runs empty rfl unasked
        · simp [covered, seatsAt, Session.line, runs]
      · exact ⟨id, rfl, by simp [covered, seatsAt], by simp [seatsAt]⟩
  · exact ⟨id, rfl, by simp [covered, seatsAt], by simp [seatsAt]⟩

mutual

/-- A part withdraws its covered seats, provided that only its own callers are in line within it. -/
theorem withdrawn_withdrawAt (place : Place) (task : Task) (s : Standstill)
    (own : ∀ p ∈ s.session.line, place <+: p → p ∈ callersAt place task) :
    Withdrawn pass (seatsAt place task) s (withdrawAt pass place task s) := by
  cases task with
  | query q => exact s.withdrawn_begin place q
  | together tasks =>
      apply withdrawn_withdrawFrom place 0 tasks s
      intro p waits k _ inside
      exact own p waits ((List.prefix_append place [k]).trans inside)
  | cancellable task =>
      have inner := withdrawn_withdrawAt (place ++ [0]) task s fun p waits inside =>
        own p waits ((List.prefix_append place [0]).trans inside)
      apply inner.drop
      · rw [map_place_seatsAt]
        exact nodup_callersAt (place ++ [0]) task
      · intro p waits
        rw [map_place_seatsAt]
        refine ⟨own p waits, fun mem => ?_⟩
        exact (List.prefix_append place [0]).trans (isPrefix_of_mem_callersAt mem)

theorem withdrawn_withdrawFrom (place : Place) (n : Nat) (tasks : List Task) (s : Standstill)
    (own : ∀ p ∈ s.session.line, ∀ k ≥ n, place ++ [k] <+: p → p ∈ callersFrom place n tasks) :
    Withdrawn pass (seatsFrom place n tasks) s (withdrawFrom pass place n tasks s) := by
  cases tasks with
  | nil => exact .nil
  | cons task rest =>
      -- whoever is in line at a place of one sibling is a caller of that sibling
      have first := withdrawn_withdrawAt (place ++ [n]) task s fun p waits inside =>
        mem_first_of_isPrefix (own p waits n (Nat.le_refl n) inside) inside
      have others := withdrawn_withdrawFrom place (n + 1) rest
        (withdrawAt pass (place ++ [n]) task s) fun p stays k above inside =>
          have waits := (first.mem_line.1 stays).1
          mem_rest_of_isPrefix (own p waits k (Nat.le_of_succ_le above) inside) above inside
      apply first.append others
      intro x in_first y in_others same
      have caller : x.place ∈ callersAt (place ++ [n]) task := by
        rw [← map_place_seatsAt]
        exact List.mem_map_of_mem in_first
      have later : x.place ∈ callersFrom place (n + 1) rest := by
        rw [same, ← map_place_seatsFrom]
        exact List.mem_map_of_mem in_others
      exact not_mem_callersFrom caller later

end

/-- The withdrawal of a whole task, with nobody in line but its callers. -/
theorem withdrawn_withdraw (t : Task) (s : Standstill) (own : s.session.line ⊆ t.callers) :
    Withdrawn pass t.seats s (withdraw pass t s) :=
  withdrawn_withdrawAt [] t s fun _ waits _ => own waits

end Task
end ApiCatalog
