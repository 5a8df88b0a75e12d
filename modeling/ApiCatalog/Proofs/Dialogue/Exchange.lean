import ApiCatalog.Dialogue.Laws

/-!
# Dialogues and what was exchanged

A dialogue is determined by the replies that it gets. Its exchanges are the requests that it asks,
each with the reply; followed along its own exchanges it comes to its result.

- `Dialogue.follow`      : what is left of a dialogue after exchanges
- `Dialogue.result?`     : how a dialogue ends after exactly these exchanges
- `Dialogue.result?_bind`: exchanges of two dialogues in turn are those of the one, then of the
  other
- `Dialogue.heard`, `Dialogue.result?_heard` : the exchanges with a service, and how a dialogue that
  is held against it ends
- `Dialogue.Asks`        : one request, and a result that goes by its reply
-/

namespace ApiCatalog

open Http (Request)

abbrev Exchange := Request × Reply

namespace Dialogue

variable {α β : Type}

@[simp]
theorem bind_eq (d : Dialogue α) (f : α → Dialogue β) : (d >>= f) = d.bind f := rfl

/-! ## Following -/

/-- What is left of a dialogue after exchanges; none if they are not its own. -/
def follow (d : Dialogue α) : List Exchange → Option (Dialogue α)
  | [] => some d
  | (request, reply) :: rest =>
      if d.pending? = some request then (d.resume reply).follow rest else none

theorem follow_append (d : Dialogue α) (a b : List Exchange) :
    d.follow (a ++ b) = (d.follow a).bind (·.follow b) := by
  induction a generalizing d with
  | nil => rfl
  | cons x rest ih =>
      rw [List.cons_append, follow, follow]
      split
      · exact ih (d.resume x.2)
      · rfl

theorem follow_snoc {d left : Dialogue α} {log : List Exchange} {request : Request} (reply : Reply)
    (h : d.follow log = some left) (waits : left.pending? = some request) :
    d.follow (log ++ [(request, reply)]) = some (left.resume reply) := by
  rw [follow_append, h, Option.bind_some, follow, if_pos waits, follow]

/-- What is left depends on the replies alone. -/
theorem foldl_resume {d left : Dialogue α} {log : List Exchange} (h : d.follow log = some left) :
    (log.map Prod.snd).foldl resume d = left := by
  induction log generalizing d with
  | nil => exact Option.some.inj h
  | cons x rest ih =>
      unfold follow at h
      split at h
      · exact ih h
      · cases h

/-! ## Ending -/

/-- How a dialogue ends after exactly these exchanges. -/
def result? (d : Dialogue α) (log : List Exchange) : Option (Except Error α) :=
  (d.follow log).bind ending?

/-- A dialogue that has ended waits at no request. -/
theorem pending?_of_ending? {d : Dialogue α} {o : Except Error α} (h : d.ending? = some o) :
    d.pending? = none := by
  induction d with
  | done x => rfl
  | failed e => rfl
  | report event next ih => exact ih h
  | ask request next => cases h

/-- Without a request to wait at, a dialogue has ended. -/
theorem ending?_isSome_of_pending? {d : Dialogue α} (h : d.pending? = none) :
    ∃ o, d.ending? = some o := by
  induction d with
  | done x => exact ⟨_, rfl⟩
  | failed e => exact ⟨_, rfl⟩
  | report event next ih => exact ih h
  | ask request next => cases h

theorem result?_of_ending? {d : Dialogue α} {o : Except Error α} (h : d.ending? = some o)
    {log : List Exchange} {o' : Except Error α} :
    d.result? log = some o' ↔ log = [] ∧ o' = o := by
  cases log with
  | nil =>
      simp only [result?, follow, Option.bind_some, h, Option.some.injEq, true_and]
      exact eq_comm
  | cons x rest => simp [result?, follow, pending?_of_ending? h]

theorem result?_report (event : Event) (next : Dialogue α) (log : List Exchange) :
    (Dialogue.report event next).result? log = next.result? log := by
  cases log with
  | nil => rfl
  | cons x rest => rfl

theorem result?_ask {request : Request} {next : Reply → Dialogue α} {log : List Exchange}
    {o : Except Error α} :
    (Dialogue.ask request next).result? log = some o ↔
      ∃ reply rest, log = (request, reply) :: rest ∧ (next reply).result? rest = some o := by
  cases log with
  | nil => simp [result?, follow, ending?]
  | cons x rest =>
      obtain ⟨asked, reply⟩ := x
      by_cases same : request = asked
      · subst same
        have there : (Dialogue.ask request next).result? ((request, reply) :: rest) =
            (next reply).result? rest := by
          simp [result?, follow, pending?, resume]
        rw [there]
        constructor
        · intro ends
          exact ⟨reply, rest, rfl, ends⟩
        · rintro ⟨reply', rest', eq, ends⟩
          cases eq
          exact ends
      · simp [result?, follow, pending?, same, Ne.symm same]

/-! ## One dialogue after another -/

theorem result?_bind {d : Dialogue α} {f : α → Dialogue β} {log : List Exchange}
    {o : Except Error β} :
    (d.bind f).result? log = some o ↔
      (∃ e, d.result? log = some (.error e) ∧ o = .error e) ∨
        ∃ a b x, log = a ++ b ∧ d.result? a = some (.ok x) ∧ (f x).result? b = some o := by
  -- the first dialogue takes exchanges off the front until it has ended
  induction d generalizing log with
  | done x =>
      have ended : (Dialogue.done x : Dialogue α).ending? = some (.ok x) := rfl
      simp only [bind, result?_of_ending? ended]
      constructor
      · intro ends
        exact .inr ⟨[], log, x, rfl, ⟨rfl, rfl⟩, ends⟩
      · rintro (⟨e, ⟨-, absurd⟩, -⟩ | ⟨a, b, y, rfl, ⟨rfl, same⟩, ends⟩)
        · cases absurd
        · cases same
          exact ends
  | failed e =>
      have ended : (Dialogue.failed e : Dialogue α).ending? = some (.error e) := rfl
      have ended' : (Dialogue.failed e : Dialogue β).ending? = some (.error e) := rfl
      simp only [bind, result?_of_ending? ended, result?_of_ending? ended']
      constructor
      · rintro ⟨rfl, rfl⟩
        exact .inl ⟨e, ⟨rfl, rfl⟩, rfl⟩
      · rintro (⟨e', ⟨rfl, same⟩, rfl⟩ | ⟨a, b, x, -, ⟨-, absurd⟩, -⟩)
        · cases same
          exact ⟨rfl, rfl⟩
        · cases absurd
  | report event next ih => simp [bind, result?_report, ih]
  | ask request next ih =>
      rw [bind, result?_ask]
      constructor
      · rintro ⟨reply, rest, rfl, there⟩
        rcases (ih reply).1 there with ⟨e, fails, rfl⟩ | ⟨a, b, x, rfl, first, second⟩
        · exact .inl ⟨e, result?_ask.2 ⟨reply, rest, rfl, fails⟩, rfl⟩
        · refine .inr ⟨(request, reply) :: a, b, x, rfl, ?_, second⟩
          exact result?_ask.2 ⟨reply, a, rfl, first⟩
      · rintro (⟨e, fails, rfl⟩ | ⟨a, b, x, rfl, first, second⟩)
        · obtain ⟨reply, rest, rfl, there⟩ := result?_ask.1 fails
          exact ⟨reply, rest, rfl, (ih reply).2 (.inl ⟨e, there, rfl⟩)⟩
        · obtain ⟨reply, rest, rfl, there⟩ := result?_ask.1 first
          exact ⟨reply, rest ++ b, rfl, (ih reply).2 (.inr ⟨rest, b, x, rfl, there, second⟩)⟩

theorem result?_bind_ok {d : Dialogue α} {f : α → Dialogue β} {log : List Exchange} {y : β} :
    (d.bind f).result? log = some (.ok y) ↔
      ∃ a b x, log = a ++ b ∧ d.result? a = some (.ok x) ∧ (f x).result? b = some (.ok y) := by
  rw [result?_bind]
  simp

theorem ending?_bind (d : Dialogue α) (f : α → Dialogue β) :
    (d.bind f).ending? = d.ending?.bind fun
      | .ok x => (f x).ending?
      | .error e => some (.error e) := by
  induction d with
  | done x => rfl
  | failed e => rfl
  | report event next ih => exact ih
  | ask request next => rfl

/-! ## Exchanges with a service -/

/-- The exchanges of a dialogue that is held against a service, as far as the service replies. -/
def heard {σ : Type} (serve : Service σ) (d : Dialogue α) (s : σ) : List Exchange :=
  match d with
  | .done _ | .failed _ => []
  | .report _ next => next.heard serve s
  | .ask request next =>
      match serve s request with
      | (s', _, some reply) => (request, reply) :: (next reply).heard serve s'
      | (_, _, none) => []

/-- How a held dialogue ended, if it did. -/
def Outcome.ended? : Outcome α → Option (Except Error α)
  | .done x => some (.ok x)
  | .failed e => some (.error e)
  | .stalled => none

/-- To hold a dialogue against a service is to follow it along what is heard. -/
theorem result?_heard {σ : Type} (serve : Service σ) (d : Dialogue α) (s : σ) :
    d.result? (d.heard serve s) = (d.against serve s).outcome.ended? := by
  induction d generalizing s with
  | done x => rfl
  | failed e => rfl
  | report event next ih => rw [heard, result?_report, ih, against, Held.after]
  | ask request next ih =>
      rw [heard, against]
      rcases serve s request with ⟨s', events, answer⟩
      cases answer with
      | none => rfl
      | some reply =>
          -- the request that is heard first is the one that the dialogue waits at
          have step : (Dialogue.ask request next).follow
              ((request, reply) :: (next reply).heard serve s') =
                (next reply).follow ((next reply).heard serve s') := by
            simp [follow, pending?, resume]
          have rest := ih reply s'
          unfold result? at rest ⊢
          dsimp only
          rw [step, rest, Held.after]

/-! ## One request -/

/-- A dialogue that makes one request and ends as `judge` says of the reply. -/
def Asks (d : Dialogue α) (request : Request) (judge : Reply → Except Error α) : Prop :=
  ∀ log o, d.result? log = some o ↔ ∃ reply, log = [(request, reply)] ∧ o = judge reply

namespace Asks

variable {d : Dialogue α} {request : Request} {judge : Reply → Except Error α}

theorem exchange (request : Request) : Asks (exchange request) request .ok := by
  intro log o
  rw [Dialogue.exchange, result?_ask]
  constructor
  · rintro ⟨reply, rest, rfl, there⟩
    obtain ⟨rfl, rfl⟩ := (result?_of_ending? rfl).1 there
    exact ⟨reply, rfl, rfl⟩
  · rintro ⟨reply, rfl, rfl⟩
    exact ⟨reply, [], rfl, rfl⟩

/-- What follows without a request only refines the judgement. -/
theorem bind (h : Asks d request judge) {f : α → Dialogue β} {g : α → Except Error β}
    (silent : ∀ x, (f x).ending? = some (g x)) :
    Asks (d.bind f) request fun reply => judge reply >>= g := by
  intro log o
  rw [result?_bind]
  constructor
  · rintro (⟨e, fails, rfl⟩ | ⟨a, b, x, rfl, first, second⟩)
    · obtain ⟨reply, rfl, judged⟩ := (h log _).1 fails
      refine ⟨reply, rfl, ?_⟩
      dsimp only
      rw [← judged]
      rfl
    · obtain ⟨reply, rfl, judged⟩ := (h a _).1 first
      obtain ⟨rfl, rfl⟩ := (result?_of_ending? (silent x)).1 second
      refine ⟨reply, rfl, ?_⟩
      dsimp only
      rw [← judged]
      rfl
  · rintro ⟨reply, rfl, rfl⟩
    cases judged : judge reply with
    | error e =>
        refine .inl ⟨e, (h _ _).2 ⟨reply, rfl, judged.symm⟩, ?_⟩
        dsimp only
        rw [judged]
        rfl
    | ok x =>
        refine .inr ⟨_, [], x, rfl, (h _ _).2 ⟨reply, rfl, judged.symm⟩, ?_⟩
        refine (result?_of_ending? (silent x)).2 ⟨rfl, ?_⟩
        dsimp only
        rw [judged]
        rfl

/-- More reports about a failure change nothing but the reports. -/
theorem onFailure (h : Asks d request judge) (events : Error → List Event) :
    Asks (d.onFailure events) request judge := by
  have reported (e : Error) (log : List Exchange) :
      ((events e).foldr .report (.failed e) : Dialogue α).result? log =
        (Dialogue.failed e : Dialogue α).result? log := by
    induction events e with
    | nil => rfl
    | cons event rest ih => rw [List.foldr_cons, result?_report, ih]
  have same (d : Dialogue α) (log : List Exchange) :
      (d.onFailure events).result? log = d.result? log := by
    induction d generalizing log with
    | done x => rfl
    | failed e => exact reported e log
    | report event next ih => rw [Dialogue.onFailure, result?_report, result?_report, ih]
    | ask asked next ih =>
        -- what follows a reply is the same for every log, so it is compared by its results
        refine Option.ext fun o => ?_
        rw [Dialogue.onFailure, result?_ask, result?_ask]
        simp [ih]
  intro log o
  rw [same, h]

theorem report (h : Asks d request judge) (event : Event) :
    Asks (.report event d) request judge := by
  intro log o
  rw [result?_report, h]

end Asks
end Dialogue
end ApiCatalog
