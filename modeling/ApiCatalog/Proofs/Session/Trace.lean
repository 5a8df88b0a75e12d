import Mathlib.Data.List.Nodup
import ApiCatalog.Proofs.Dialogue.Exchange
import ApiCatalog.Proofs.Session.Schedule

/-!
# One pass after another

The part of the account that needs the history only: passes do not mix, and each of them is a
conversation that `Discovery.pass` holds when it gets the replies that it got.

- `Session.Along` : how far a pass has come, by its own requests and replies
- `Session.Trace` : the passes of a history
- `Session.Trace.extend` : moments that move the last pass, or none
-/

namespace ApiCatalog
namespace Session

open Http (Request)

variable {ι : Type} [DecidableEq ι] {m : Mapper} {h new : List (Moment ι)}

/-! ## A pass by itself -/

/-- How far the pass of `c` has come: it has been followed along its own requests and replies, with
one more request at most that is under way. -/
def Along (m : Mapper) (h : List (Moment ι)) (c : ι) (d : Dialogue Catalog) (asked : Bool) : Prop :=
  ∃ log : List Exchange, (Discovery.pass m.mode).follow log = some d ∧
    repliesOf h c = log.map Prod.snd ∧
    requestsOf h c = log.map Prod.fst ++ (if asked then d.pending?.toList else []) ∧
    (asked = true → d.pending? ≠ none)

namespace Along

variable {c : ι} {d : Dialogue Catalog} {asked : Bool}

/-- What others do leaves a pass where it is. -/
theorem frame (along : Along m h c d asked) (no_request : requestsOf new c = [])
    (no_reply : repliesOf new c = []) : Along m (h ++ new) c d asked := by
  rcases along with ⟨log, follows, replies, requests, waits⟩
  refine ⟨log, follows, ?_, ?_, waits⟩
  · rw [repliesOf_append, no_reply, List.append_nil, replies]
  · rw [requestsOf_append, no_request, List.append_nil, requests]

theorem begun (silent : requestsOf h c = [] ∧ repliesOf h c = []) :
    Along m h c (Discovery.pass m.mode) false :=
  ⟨[], rfl, silent.2, silent.1, by simp⟩

theorem asked_one (along : Along m h c d false) {request : Request}
    (waits : d.pending? = some request) : Along m (h ++ [.asked c request]) c d true := by
  rcases along with ⟨log, follows, replies, requests, -⟩
  refine ⟨log, follows, ?_, ?_, by simp [waits]⟩
  · rw [repliesOf_append, replies]
    simp [repliesOf]
  · rw [requestsOf_append, requests]
    simp [requestsOf, waits]

theorem replied (along : Along m h c d true) (r : Reply) :
    Along m (h ++ [.replied c r]) c (d.resume r) false := by
  rcases along with ⟨log, follows, replies, requests, waits⟩
  cases pending : d.pending? with
  | none => exact absurd pending (waits rfl)
  | some request =>
      -- the request that was under way is now one half of an exchange
      refine ⟨log ++ [(request, r)], Dialogue.follow_snoc r follows pending, ?_, ?_, by simp⟩
      · rw [repliesOf_append, replies]
        simp [repliesOf]
      · rw [requestsOf_append, requests]
        simp [requestsOf, pending]

end Along

/-- A pass that has ended has no request under way. -/
theorem Along.not_asked {c : ι} {d : Dialogue Catalog} {asked : Bool} (along : Along m h c d asked)
    {outcome : Except Error Catalog} (ends : d.ending? = some outcome) : asked = false := by
  rcases along with ⟨-, -, -, -, waits⟩
  cases asked with
  | false => rfl
  | true => exact absurd (Dialogue.pending?_of_ending? ends) (waits rfl)

/-! ## All passes -/

/-- The passes of a history: one after another, each along its own requests and replies to the end
that it came to. -/
structure Trace (m : Mapper) (h : List (Moment ι)) : Prop where
  distinct : (passes h).Nodup
  silent : ∀ c, c ∉ passes h → requestsOf h c = [] ∧ repliesOf h c = []
  trace : requests h = (passes h).flatMap fun c => (requestsOf h c).map (c, ·)
  along : ∀ c ∈ passes h, ∃ d asked, Along m h c d asked
  ended : ∀ c outcome, .ended c outcome ∈ h →
    c ∈ passes h ∧ ∃ d, Along m h c d false ∧ d.ending? = some outcome

namespace Trace

theorem nil : Trace m ([] : List (Moment ι)) :=
  ⟨List.nodup_nil, fun _ _ => ⟨rfl, rfl⟩, rfl, by simp [passes], by simp⟩

variable {c : ι} {d : Dialogue Catalog}

/-- The callers of the passes before are not the caller of the last one. -/
theorem getLast?_ne (t : Trace m h) {earlier : List ι} {b : ι} (split : passes h = earlier ++ [c])
    (mem : b ∈ earlier) : (passes h).getLast? ≠ some b := by
  have distinct := t.distinct
  rw [split] at distinct ⊢
  rw [List.getLast?_concat]
  intro same
  exact List.disjoint_of_nodup_append distinct mem (by simpa using same.symm)

/-- Where only the last pass goes on asking, the requests of the last pass are still the last
requests of all. -/
theorem requests_extend (t : Trace m h)
    (others : ∀ b, (passes h).getLast? ≠ some b → requestsOf new b = []) :
    requests (h ++ new) = (passes h).flatMap fun b => (requestsOf (h ++ new) b).map (b, ·) := by
  cases at_end : (passes h).getLast? with
  | none =>
      have no_request : requests new = [] :=
        requests_eq_nil fun b => others b (by rw [at_end]; simp)
      have none_began : passes h = [] := List.getLast?_eq_none_iff.1 at_end
      rw [requests_append, no_request, List.append_nil, t.trace, none_began]
      rfl
  | some c =>
      rcases List.getLast?_eq_some_iff.1 at_end with ⟨earlier, split⟩
      have own : requests new = (requestsOf new c).map (c, ·) := by
        refine requests_eq_map fun b other => others b fun same => other ?_
        rw [at_end] at same
        exact (Option.some.inj same).symm
      have unmoved {b : ι} (mem : b ∈ earlier) : requestsOf (h ++ new) b = requestsOf h b := by
        rw [requestsOf_append, others b (t.getLast?_ne split mem), List.append_nil]
      calc
        requests (h ++ new) = requests h ++ (requestsOf new c).map (c, ·) := by
            rw [requests_append, own]
        _ = (earlier.flatMap fun b => (requestsOf h b).map (b, ·)) ++
              (requestsOf (h ++ new) c).map (c, ·) := by
            rw [t.trace, split, requestsOf_append]
            simp
        _ = (earlier.flatMap fun b => (requestsOf (h ++ new) b).map (b, ·)) ++
              (requestsOf (h ++ new) c).map (c, ·) := by
            congr 1
            exact List.flatMap_congr fun b mem => by rw [unmoved mem]
        _ = _ := by
            rw [split]
            simp

/-- Moments that begin no pass and move no pass but the last one. -/
theorem extend (t : Trace m h) (no_pass : passes new = [])
    (others : ∀ b, (passes h).getLast? ≠ some b → requestsOf new b = [] ∧ repliesOf new b = [])
    (last : ∀ c, (passes h).getLast? = some c → ∃ d asked, Along m (h ++ new) c d asked)
    (ended : ∀ c outcome, .ended c outcome ∈ h ++ new →
      (passes h).getLast? ≠ some c ∧ .ended c outcome ∈ h ∨
        c ∈ passes h ∧ ∃ d, Along m (h ++ new) c d false ∧ d.ending? = some outcome) :
    Trace m (h ++ new) := by
  have same : passes (h ++ new) = passes h := by rw [passes_append, no_pass, List.append_nil]
  have frame {b : ι} {d : Dialogue Catalog} {asked : Bool} (other : (passes h).getLast? ≠ some b)
      (along : Along m h b d asked) : Along m (h ++ new) b d asked :=
    along.frame (others b other).1 (others b other).2
  constructor
  case distinct =>
    rw [same]
    exact t.distinct
  case silent =>
    intro b absent
    rw [same] at absent
    have other : (passes h).getLast? ≠ some b := fun last => absent (List.mem_of_getLast? last)
    rw [requestsOf_append, (others b other).1, repliesOf_append, (others b other).2,
      List.append_nil, List.append_nil]
    exact t.silent b absent
  case trace =>
    rw [same]
    exact t.requests_extend fun b other => (others b other).1
  case along =>
    -- the last pass may have moved, and the others have not
    intro b mem
    rw [same] at mem
    by_cases at_end : (passes h).getLast? = some b
    · exact last b at_end
    · rcases t.along b mem with ⟨d, asked, along⟩
      exact ⟨d, asked, frame at_end along⟩
  case ended =>
    intro b outcome mem
    rw [same]
    rcases ended b outcome mem with ⟨other, old⟩ | ends
    · rcases t.ended b outcome old with ⟨began, d, along, ends⟩
      exact ⟨began, d, frame other along, ends⟩
    · exact ends

theorem quiet (t : Trace m h) (quiet : ∀ x ∈ new, x.ofPass = false) : Trace m (h ++ new) := by
  rcases quiet_eq_nil quiet with ⟨no_pass, -, -, none_of, no_end⟩
  have frame {c : ι} {d : Dialogue Catalog} {asked : Bool} (along : Along m h c d asked) :
      Along m (h ++ new) c d asked :=
    along.frame (none_of c).1 (none_of c).2
  refine t.extend no_pass (fun b _ => none_of b) ?_ ?_
  · intro c at_end
    rcases t.along c (List.mem_of_getLast? at_end) with ⟨d, asked, along⟩
    exact ⟨d, asked, frame along⟩
  · intro c outcome mem
    rcases List.mem_append.1 mem with old | shown
    · rcases t.ended c outcome old with ⟨began, d, along, ends⟩
      exact .inr ⟨began, d, frame along, ends⟩
    · exact absurd shown (no_end c outcome)

theorem begin (t : Trace m h) (absent : c ∉ passes h) : Trace m (h ++ [.began c]) := by
  have frame {b : ι} {d : Dialogue Catalog} {asked : Bool} (along : Along m h b d asked) :
      Along m (h ++ [.began c]) b d asked :=
    along.frame rfl rfl
  have requests_same (b : ι) : requestsOf (h ++ [.began c]) b = requestsOf h b := by
    rw [requestsOf_append]
    exact List.append_nil _
  have longer : passes (h ++ [.began c]) = passes h ++ [c] := passes_append h _
  -- the new pass is silent so far, and the others are where they were
  constructor
  case distinct =>
    rw [longer]
    exact List.Nodup.append t.distinct (by simp) (by simpa [List.disjoint_left] using absent)
  case silent =>
    intro b other
    rw [longer, List.mem_append, not_or] at other
    rw [requestsOf_append, repliesOf_append]
    simpa [requestsOf, repliesOf] using t.silent b other.1
  case trace =>
    have last : (requestsOf h c).map (c, ·) = [] := by rw [(t.silent c absent).1, List.map_nil]
    calc
      requests (h ++ [.began c]) = requests h := by
          rw [requests_append]
          exact List.append_nil _
      _ = (passes h).flatMap fun b => (requestsOf h b).map (b, ·) := t.trace
      _ = (passes h ++ [c]).flatMap fun b => (requestsOf h b).map (b, ·) := by
          rw [List.flatMap_append, List.flatMap_singleton, last, List.append_nil]
      _ = _ := by
          rw [longer]
          simp only [requests_same]
  case along =>
    intro b mem
    rw [longer] at mem
    rcases List.mem_append.1 mem with old | new
    · rcases t.along b old with ⟨d, asked, along⟩
      exact ⟨d, asked, frame along⟩
    · rw [List.mem_singleton.1 new]
      exact ⟨_, _, frame (.begun (t.silent c absent))⟩
  case ended =>
    intro b outcome mem
    have old : .ended b outcome ∈ h := by simpa using mem
    rcases t.ended b outcome old with ⟨began, d, along, ends⟩
    rw [longer]
    exact ⟨List.mem_append_left _ began, d, frame along, ends⟩

/-- The last pass sends a request. -/
theorem request (t : Trace m h) (last : (passes h).getLast? = some c) (along : Along m h c d false)
    (going : ∀ outcome, .ended c outcome ∉ h) {request : Request}
    (waits : d.pending? = some request) : Trace m (h ++ [.asked c request]) := by
  refine t.extend rfl ?_ ?_ ?_
  · intro b other
    rw [last] at other
    exact ⟨by simpa [requestsOf] using other, rfl⟩
  · intro b at_end
    cases last.symm.trans at_end
    exact ⟨d, true, along.asked_one waits⟩
  · intro b outcome mem
    have old : .ended b outcome ∈ h := by simpa using mem
    refine .inl ⟨fun at_end => ?_, old⟩
    cases last.symm.trans at_end
    exact going outcome old

/-- The cluster replies to the last pass. -/
theorem reply (t : Trace m h) (last : (passes h).getLast? = some c) (along : Along m h c d true)
    (going : ∀ outcome, .ended c outcome ∉ h) (r : Reply) : Trace m (h ++ [.replied c r]) := by
  refine t.extend rfl ?_ ?_ ?_
  · intro b other
    rw [last] at other
    exact ⟨rfl, by simpa [repliesOf] using other⟩
  · intro b at_end
    cases last.symm.trans at_end
    exact ⟨_, false, along.replied r⟩
  · intro b outcome mem
    have old : .ended b outcome ∈ h := by simpa using mem
    refine .inl ⟨fun at_end => ?_, old⟩
    cases last.symm.trans at_end
    exact going outcome old

/-- The last pass comes to its end. -/
theorem finish (t : Trace m h) (last : (passes h).getLast? = some c) (along : Along m h c d false)
    (going : ∀ outcome, .ended c outcome ∉ h) {outcome : Except Error Catalog}
    (ends : d.ending? = some outcome) : Trace m (h ++ [.ended c outcome]) := by
  have after : Along m (h ++ [.ended c outcome]) c d false := along.frame rfl rfl
  refine t.extend rfl (fun _ _ => ⟨rfl, rfl⟩) ?_ ?_
  · intro b at_end
    cases last.symm.trans at_end
    exact ⟨d, false, after⟩
  · intro b outcome' mem
    rcases List.mem_append.1 mem with old | shown
    · refine .inl ⟨fun at_end => ?_, old⟩
      cases last.symm.trans at_end
      exact going outcome' old
    · cases List.mem_singleton.1 shown
      exact .inr ⟨List.mem_of_getLast? last, d, after, ends⟩

end Trace

end Session
end ApiCatalog
