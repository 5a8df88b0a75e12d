import ApiCatalog.Proofs.Dialogue.Exchange

/-!
# The course of a dialogue

What a dialogue asks, and how it ends, when replies come to it in turn. Replies may run out before
it has ended; then it waits at the last request that it asked.

- `Dialogue.course`            : the requests and the end, by the replies
- `Dialogue.course_bind`       : the course of one dialogue after another
- `Dialogue.Asks.course_cons`  : the course of a single request
- `Dialogue.course_of_follow`, `Dialogue.course_heard` : following exchanges, and holding a dialogue
  against a service, show the same
-/

namespace ApiCatalog

open Http (Request)

namespace Dialogue

variable {α β : Type}

/-! ## Courses -/

/-- `asked` holds the request without a reply too; `ending` is `none` while one is due. -/
structure Course (α : Type) where
  asked : List Request
  ending : Option (Except Error α)

namespace Course

/-- The course with one more request at its front. -/
def after (request : Request) (c : Course α) : Course α :=
  { c with asked := request :: c.asked }

/-- What a course becomes when `f` goes on from its value, after so many requests. -/
def andThen (c : Course α) (f : α → Nat → Course β) : Course β :=
  match c.ending with
  | some (.ok x) => ⟨c.asked ++ (f x c.asked.length).asked, (f x c.asked.length).ending⟩
  | some (.error e) => ⟨c.asked, some (.error e)⟩
  | none => ⟨c.asked, none⟩

def map (g : α → β) (c : Course α) : Course β :=
  ⟨c.asked, c.ending.map (Except.map g)⟩

@[simp]
theorem asked_after (request : Request) (c : Course α) :
    (c.after request).asked = request :: c.asked := rfl

@[simp]
theorem ending_after (request : Request) (c : Course α) : (c.after request).ending = c.ending := rfl

@[simp]
theorem asked_map (g : α → β) (c : Course α) : (c.map g).asked = c.asked := rfl

@[simp]
theorem ending_map (g : α → β) (c : Course α) :
    (c.map g).ending = c.ending.map (Except.map g) := rfl

theorem map_map {γ : Type} (g : α → β) (f : β → γ) (c : Course α) :
    (c.map g).map f = c.map (f ∘ g) := by
  rcases c with ⟨asked, _ | (e | x)⟩ <;> rfl

theorem andThen_after (request : Request) (c : Course α) (f : α → Nat → Course β) :
    (c.after request).andThen f = (c.andThen fun x n => f x (n + 1)).after request := by
  rcases c with ⟨asked, _ | (e | x)⟩ <;> simp [andThen, after]

theorem ending_map_eq_error {g : α → β} {c : Course α} {e : Error} :
    (c.map g).ending = some (.error e) ↔ c.ending = some (.error e) := by
  rcases c with ⟨asked, _ | (e' | x)⟩ <;> simp [Except.map]

theorem ending_map_eq_none {g : α → β} {c : Course α} :
    (c.map g).ending = none ↔ c.ending = none := by
  simp

end Course

/-- What a dialogue asks and how it ends when it gets replies in turn. -/
def course : Dialogue α → List Reply → Course α
  | .done x, _ => ⟨[], some (.ok x)⟩
  | .failed e, _ => ⟨[], some (.error e)⟩
  | .report _ next, replies => next.course replies
  | .ask request _, [] => ⟨[request], none⟩
  | .ask request next, reply :: later => ((next reply).course later).after request

/-! ## One dialogue after another -/

theorem course_of_ending? {d : Dialogue α} {o : Except Error α} (h : d.ending? = some o)
    (replies : List Reply) : d.course replies = ⟨[], some o⟩ := by
  induction d with
  | done x =>
      cases h
      simp [course]
  | failed e =>
      cases h
      simp [course]
  | report event next ih => simpa [course] using ih h
  | ask request next => cases h

/-- The second dialogue gets the replies that the first has not taken. -/
theorem course_bind (d : Dialogue α) (f : α → Dialogue β) (replies : List Reply) :
    (d.bind f).course replies =
      (d.course replies).andThen fun x n => (f x).course (replies.drop n) := by
  induction d generalizing replies with
  | done x => simp [bind, course, Course.andThen]
  | failed e => simp [bind, course, Course.andThen]
  | report event next ih => simpa [bind, course] using ih replies
  | ask request next ih =>
      cases replies with
      | nil => simp [bind, course, Course.andThen]
      | cons reply later => simp [bind, course, ih, Course.andThen_after]

/-- A dialogue that ends without a request takes no reply from the one after it. -/
theorem course_bind_of_ending? {d : Dialogue α} {x : α} (h : d.ending? = some (.ok x))
    (f : α → Dialogue β) (replies : List Reply) :
    (d.bind f).course replies = (f x).course replies := by
  simp [course_bind, course_of_ending? h, Course.andThen]

/-- What follows without a request only changes the value. -/
theorem course_bind_silent {f : α → Dialogue β} {g : α → β}
    (silent : ∀ x, (f x).ending? = some (.ok (g x))) (d : Dialogue α) (replies : List Reply) :
    (d.bind f).course replies = (d.course replies).map g := by
  rw [course_bind]
  rcases d.course replies with ⟨asked, _ | (e | x)⟩
  · rfl
  · rfl
  · simp [Course.andThen, Course.map, course_of_ending? (silent x), Except.map]

/-! ## The same by other means -/

theorem course_of_pending? {d : Dialogue α} {request : Request} (h : d.pending? = some request)
    (reply : Reply) (later : List Reply) :
    d.course (reply :: later) = ((d.resume reply).course later).after request := by
  induction d with
  | done x => cases h
  | failed e => cases h
  | report event next ih => exact ih h
  | ask asked next =>
      cases h
      rfl

theorem course_nil (d : Dialogue α) : d.course [] = ⟨d.pending?.toList, d.ending?⟩ := by
  induction d with
  | report event next ih => exact ih
  | _ => rfl

/-- The exchanges that a dialogue is followed along are its course, with the request that it waits
at behind them. -/
theorem course_of_follow {d left : Dialogue α} {log : List Exchange}
    (h : d.follow log = some left) :
    d.course (log.map Prod.snd) = ⟨log.map Prod.fst ++ left.pending?.toList, left.ending?⟩ := by
  induction log generalizing d with
  | nil =>
      cases h
      exact course_nil left
  | cons x rest ih =>
      rcases x with ⟨request, reply⟩
      unfold follow at h
      -- a log goes on only with the request that the dialogue waits at
      split at h
      · next waits => simp [course_of_pending? waits, ih h, Course.after]
      · cases h

/-- A dialogue that is held against a service ends as its course does with the replies of the
service, and what the service replied to are the first requests of that course. -/
theorem course_heard {σ : Type} (serve : Service σ) (d : Dialogue α) (s : σ) :
    (d.course ((d.heard serve s).map Prod.snd)).ending = (d.against serve s).outcome.ended? ∧
      (d.heard serve s).map Prod.fst <+: (d.course ((d.heard serve s).map Prod.snd)).asked := by
  induction d generalizing s with
  | done x => simp [heard, course, against, Outcome.ended?]
  | failed e => simp [heard, course, against, Outcome.ended?]
  | report event next ih => simpa [heard, course, against, Held.after] using ih s
  | ask request next ih =>
      unfold heard against
      rcases serve s request with ⟨s', events, _ | reply⟩
      · simp [course, Outcome.ended?]
      · simpa [course, Held.after] using ih reply s'

/-! ## One request -/

namespace Asks

variable {d : Dialogue α} {request : Request} {judge : Reply → Except Error α}

theorem pending?_and_resume (h : Asks d request judge) (reply : Reply) :
    d.pending? = some request ∧ (d.resume reply).ending? = some (judge reply) := by
  have ends : d.result? [(request, reply)] = some (judge reply) := (h _ _).2 ⟨reply, rfl, rfl⟩
  unfold result? follow at ends
  split at ends
  · next waits => exact ⟨waits, by simpa [follow] using ends⟩
  · cases ends

theorem course_nil (h : Asks d request judge) : d.course [] = ⟨[request], none⟩ := by
  -- any reply shows which request is pending
  have waits := (h.pending?_and_resume (.refused ⟨.other "", []⟩)).1
  have going : d.ending? = none := by
    cases ends : d.ending? with
    | none => rfl
    | some o => simp [pending?_of_ending? ends] at waits
  simp [Dialogue.course_nil, waits, going]

theorem course_cons (h : Asks d request judge) (reply : Reply) (later : List Reply) :
    d.course (reply :: later) = ⟨[request], some (judge reply)⟩ := by
  have ⟨waits, ends⟩ := h.pending?_and_resume reply
  simp [course_of_pending? waits, course_of_ending? ends, Course.after]

/-- Without a reply, what comes after one request is not reached. -/
theorem course_bind_nil (h : Asks d request judge) (f : α → Dialogue β) :
    (d.bind f).course [] = ⟨[request], none⟩ := by
  simp [course_bind, h.course_nil, Course.andThen]

/-- What comes after one request gets the replies behind the first. -/
theorem course_bind_ok (h : Asks d request judge) {reply : Reply} {x : α}
    (read : judge reply = .ok x) (f : α → Dialogue β) (later : List Reply) :
    (d.bind f).course (reply :: later) = ((f x).course later).after request := by
  simp [course_bind, h.course_cons, read, Course.andThen, Course.after]

/-- A reply that is an error ends it all. -/
theorem course_bind_error (h : Asks d request judge) {reply : Reply} {e : Error}
    (read : judge reply = .error e) (f : α → Dialogue β) (later : List Reply) :
    (d.bind f).course (reply :: later) = ⟨[request], some (.error e)⟩ := by
  simp [course_bind, h.course_cons, read, Course.andThen]

end Asks

end Dialogue
end ApiCatalog
