import Mathlib.Data.List.Basic
import ApiCatalog.Mapper
import ApiCatalog.Session

/-!
# Schedules of a session

Everything that callers, the cluster and the order of their steps can do to a session. Who runs next
is left open: any caller that waits may begin a pass while the cell is empty and no pass runs, any
caller may give up at any point, and the cluster may reply with anything or not at all.

- `Session.Moment`  : what can be seen of a session
- `Session.Sharing` : a session with whether a request is under way
- `Session.Step`    : one step, with the moments that it shows
- `Session.Run`     : the histories of moments from a fresh session on
- `Session.calls`, `Session.passes`, `Session.requests`, … : what a history tells
- `Session.mem_calls`, `Session.mem_passes`, … : what it tells is what it shows
-/

namespace ApiCatalog
namespace Session

open Http (Request)

variable {ι : Type}

/-! ## Moments -/

inductive Moment (ι : Type)
  | arrived (c : ι)
  | began (c : ι)
  | asked (c : ι) (request : Request)
  | replied (c : ι) (reply : Reply)
  | ended (c : ι) (outcome : Except Error Catalog)
  | returned (c : ι) (result : Except Error Mapper.Answer)
  | abandoned (c : ι)

namespace Moment

def caller : Moment ι → ι
  | .arrived c | .began c | .asked c _ | .replied c _ => c
  | .ended c _ | .returned c _ | .abandoned c => c

/-- The moments of a pass, from its begin to its end. -/
def ofPass : Moment ι → Bool
  | .began _ | .asked .. | .replied .. | .ended .. => true
  | _ => false

end Moment

/-! ## Steps -/

/-- `asked` tells whether the request that the running pass waits at is under way. -/
structure Sharing (ι : Type) extends Session ι where
  asked : Bool

namespace Sharing

def fresh : Sharing ι :=
  ⟨Session.fresh, false⟩

/-- The mapper's own part of the state: the cell and the pass that would fill it. -/
def cell (s : Sharing ι) : Option Catalog × Option (ι × Dialogue Catalog) × Bool :=
  (s.kept, s.running, s.asked)

end Sharing

/-- One step of a session whose callers ask what `ask` says. -/
inductive Step [DecidableEq ι] (m : Mapper) (ask : ι → Mapper.Query) (s : Sharing ι) :
    List (Moment ι) → Sharing ι → Prop
  /-- A call arrives. -/
  | arrive (c : ι) : Step m ask s [.arrived c] { s with waiting := s.waiting ++ [c] }
  /-- A caller that waits begins a pass: the cell is empty, and no other pass runs. -/
  | begin {c : ι} (empty : s.kept = none) (idle : s.running = none) (turn : c ∈ s.waiting) :
      Step m ask s [.began c]
        { s with
          running := some (c, Discovery.pass m.mode), waiting := s.waiting.filter (· ≠ c) }
  /-- The running pass sends the request that it has come to. -/
  | ask {c : ι} {d : Dialogue Catalog} {request : Request} (runs : s.running = some (c, d))
      (waits : d.pending? = some request) (silent : s.asked = false) :
      Step m ask s [.asked c request] { s with asked := true }
  /-- The cluster replies, with anything. -/
  | reply {c : ι} {d : Dialogue Catalog} (runs : s.running = some (c, d)) (sent : s.asked = true)
      (r : Reply) :
      Step m ask s [.replied c r] { s with running := some (c, d.resume r), asked := false }
  /-- The running pass completes. Its catalog is kept, and its caller is in line for an answer. -/
  | complete {c : ι} {d : Dialogue Catalog} {catalog : Catalog} (runs : s.running = some (c, d))
      (done : d.ending? = some (.ok catalog)) :
      Step m ask s [.ended c (.ok catalog)]
        { s with kept := some catalog, running := none, waiting := s.waiting ++ [c] }
  /-- The running pass fails. The cell stays empty, and its caller gets the error. -/
  | fail {c : ι} {d : Dialogue Catalog} {e : Error} (runs : s.running = some (c, d))
      (failed : d.ending? = some (.error e)) :
      Step m ask s [.ended c (.error e), .returned c (.error e)] { s with running := none }
  /-- A caller is answered from the catalog that is kept. -/
  | answer {c : ι} {catalog : Catalog} (kept : s.kept = some catalog) (turn : c ∈ s.waiting) :
      Step m ask s [.returned c (m.answer catalog (ask c))]
        { s with waiting := s.waiting.filter (· ≠ c) }
  /-- A caller that waits gives up. -/
  | leave {c : ι} (there : c ∈ s.waiting) :
      Step m ask s [.abandoned c] { s with waiting := s.waiting.filter (· ≠ c) }
  /-- The caller whose pass runs gives up, with or without a request under way. -/
  | drop {c : ι} {d : Dialogue Catalog} (runs : s.running = some (c, d)) :
      Step m ask s [.abandoned c] { s with running := none, asked := false }

/-! ## Histories -/

section Histories

variable (h : List (Moment ι))

def calls : List ι :=
  h.filterMap fun
    | .arrived c => some c
    | _ => none

/-- The callers that have returned or given up. -/
def through : List ι :=
  h.filterMap fun
    | .returned c _ | .abandoned c => some c
    | _ => none

/-- The passes, told by their callers, in the order in which they began. -/
def passes : List ι :=
  h.filterMap fun
    | .began c => some c
    | _ => none

/-- All requests, each with the caller whose pass it belongs to. -/
def requests : List (ι × Request) :=
  h.filterMap fun
    | .asked c request => some (c, request)
    | _ => none

/-- The catalogs of passes that completed. -/
def completions : List (ι × Catalog) :=
  h.filterMap fun
    | .ended c (.ok catalog) => some (c, catalog)
    | _ => none

variable [DecidableEq ι] (c : ι)

/-- The requests of the pass of `c`. -/
def requestsOf : List Request :=
  h.filterMap fun
    | .asked d request => if d = c then some request else none
    | _ => none

/-- The replies to the pass of `c`. -/
def repliesOf : List Reply :=
  h.filterMap fun
    | .replied d reply => if d = c then some reply else none
    | _ => none

end Histories

/-! ### Histories that grow -/

section Append

variable (h new : List (Moment ι))

@[simp]
theorem calls_append : calls (h ++ new) = calls h ++ calls new :=
  List.filterMap_append

@[simp]
theorem through_append : through (h ++ new) = through h ++ through new :=
  List.filterMap_append

@[simp]
theorem passes_append : passes (h ++ new) = passes h ++ passes new :=
  List.filterMap_append

@[simp]
theorem requests_append : requests (h ++ new) = requests h ++ requests new :=
  List.filterMap_append

@[simp]
theorem completions_append : completions (h ++ new) = completions h ++ completions new :=
  List.filterMap_append

variable [DecidableEq ι] (c : ι)

@[simp]
theorem requestsOf_append : requestsOf (h ++ new) c = requestsOf h c ++ requestsOf new c :=
  List.filterMap_append

@[simp]
theorem repliesOf_append : repliesOf (h ++ new) c = repliesOf h c ++ repliesOf new c :=
  List.filterMap_append

end Append

/-- What a projection lists is what a history shows, when it picks moments of one form. -/
theorem mem_filterMap_iff {β : Type} {f : Moment ι → Option β} (of : β → Moment ι)
    (picks : ∀ x b, f x = some b ↔ x = of b) {h : List (Moment ι)} {b : β} :
    b ∈ h.filterMap f ↔ of b ∈ h := by
  rw [List.mem_filterMap]
  constructor
  · intro picked
    rcases picked with ⟨x, mem, same⟩
    rw [← (picks x b).1 same]
    exact mem
  · intro mem
    exact ⟨of b, mem, (picks _ b).2 rfl⟩

theorem mem_calls {h : List (Moment ι)} {c : ι} : c ∈ calls h ↔ .arrived c ∈ h := by
  refine mem_filterMap_iff .arrived fun x c => ?_
  cases x <;> simp

theorem mem_passes {h : List (Moment ι)} {c : ι} : c ∈ passes h ↔ .began c ∈ h := by
  refine mem_filterMap_iff .began fun x c => ?_
  cases x <;> simp

theorem mem_requestsOf [DecidableEq ι] {h : List (Moment ι)} {c : ι} {request : Request} :
    request ∈ requestsOf h c ↔ .asked c request ∈ h := by
  refine mem_filterMap_iff (.asked c) fun x request => ?_
  cases x <;> simp

theorem mem_completions {h : List (Moment ι)} {c : ι} {catalog : Catalog} :
    (c, catalog) ∈ completions h ↔ .ended c (.ok catalog) ∈ h := by
  refine mem_filterMap_iff (fun p : ι × Catalog => .ended p.1 (.ok p.2)) fun x p => ?_
  rcases p with ⟨c, catalog⟩
  cases x with
  | ended d outcome => cases outcome <;> simp
  | _ => simp

theorem mem_through {h : List (Moment ι)} {c : ι} :
    c ∈ through h ↔ (∃ result, .returned c result ∈ h) ∨ .abandoned c ∈ h := by
  unfold through
  rw [List.mem_filterMap]
  constructor
  · intro told
    rcases told with ⟨x, mem, same⟩
    cases x <;> cases same
    · exact .inl ⟨_, mem⟩
    · exact .inr mem
  · intro told
    rcases told with ⟨result, mem⟩ | mem
    · exact ⟨_, mem, rfl⟩
    · exact ⟨_, mem, rfl⟩

theorem passes_extend {h new : List (Moment ι)} (no_pass : passes new = []) :
    passes (h ++ new) = passes h := by
  rw [passes_append, no_pass, List.append_nil]

/-- Moments that belong to no pass tell nothing about passes. -/
theorem quiet_eq_nil [DecidableEq ι] {new : List (Moment ι)}
    (quiet : ∀ x ∈ new, x.ofPass = false) :
    passes new = [] ∧ requests new = [] ∧ completions new = [] ∧
      (∀ c, requestsOf new c = [] ∧ repliesOf new c = []) ∧
      ∀ c outcome, .ended c outcome ∉ new := by
  have other {x : Moment ι} (mem : x ∈ new) : ¬x.ofPass = true := by simp [quiet x mem]
  -- each of the projections picks moments of one form, and that form is of a pass
  refine ⟨?_, ?_, ?_, fun c => ⟨?_, ?_⟩, fun c outcome mem => other mem rfl⟩ <;>
    refine List.filterMap_eq_nil_iff.2 fun x mem => ?_ <;>
    cases x <;> first | rfl | exact absurd rfl (other mem)

/-- When nobody but `c` asks, all requests are those of `c`. -/
theorem requests_eq_map [DecidableEq ι] {h : List (Moment ι)} {c : ι}
    (others : ∀ b, b ≠ c → requestsOf h b = []) : requests h = (requestsOf h c).map (c, ·) := by
  unfold requests requestsOf at *
  rw [List.map_filterMap]
  refine List.filterMap_congr fun x mem => ?_
  cases x with
  | asked b request =>
      by_cases same : b = c
      · simp [same]
      · have none_asked := List.filterMap_eq_nil_iff.1 (others b same) _ mem
        simp at none_asked
  | _ => rfl

theorem requests_eq_nil [DecidableEq ι] {h : List (Moment ι)}
    (none_of : ∀ b, requestsOf h b = []) : requests h = [] := by
  refine List.filterMap_eq_nil_iff.2 fun x mem => ?_
  cases x with
  | asked b request =>
      have none_asked := List.filterMap_eq_nil_iff.1 (none_of b) _ mem
      simp at none_asked
  | _ => rfl

/-! ## Runs -/

/-- The histories that a fresh session can show, with the state after them. No two calls are the
same. -/
inductive Run [DecidableEq ι] (m : Mapper) (ask : ι → Mapper.Query) :
    List (Moment ι) → Sharing ι → Prop
  | fresh : Run m ask [] .fresh
  | step {h new : List (Moment ι)} {s s' : Sharing ι} (before : Run m ask h s)
      (step : Step m ask s new s') (unlike : ∀ c, .arrived c ∈ new → c ∉ calls h) :
      Run m ask (h ++ new) s'

end Session
end ApiCatalog
