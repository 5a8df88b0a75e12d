import ApiCatalog.Event

/-!
# Dialogues

A dialogue is a finite conversation with a service: it reports events, asks requests and goes on
as the replies tell, until it is done or fails. It is plain data, so the same dialogue can be held
against any service, paused between a request and its reply, or thrown away half way.

- `Dialogue.bind`    : one dialogue after another
- `Dialogue.against` : a dialogue held against a service that keeps a state
- `Dialogue.resume`  : one reply at a time
- `Dialogue.opening` : what is reported before the first request
-/

namespace ApiCatalog

open Http (Request)

abbrev Reply := Http.Reply Error

inductive Dialogue (α : Type) where
  | done (value : α)
  | failed (error : Error)
  | report (event : Event) (next : Dialogue α)
  | ask (request : Request) (next : Reply → Dialogue α)

namespace Dialogue

variable {α β : Type}

/-! ## Composition -/

def bind (d : Dialogue α) (f : α → Dialogue β) : Dialogue β :=
  match d with
  | .done x => f x
  | .failed e => .failed e
  | .report event next => .report event (next.bind f)
  | .ask request next => .ask request fun reply => (next reply).bind f

instance : Monad Dialogue where
  pure := .done
  bind := bind

def ofExcept : Except Error α → Dialogue α
  | .ok x => .done x
  | .error e => .failed e

/-- Reports one event. -/
def tell (event : Event) : Dialogue Unit :=
  .report event (.done ())

def tellAll (events : List Event) : Dialogue Unit :=
  events.foldr .report (.done ())

/-- Asks one request. -/
def exchange (request : Request) : Dialogue Reply :=
  .ask request .done

/-- Reports more about a failure, and fails all the same. -/
def onFailure (events : Error → List Event) (d : Dialogue α) : Dialogue α :=
  match d with
  | .done x => .done x
  | .failed e => (events e).foldr .report (.failed e)
  | .report event next => .report event (next.onFailure events)
  | .ask request next => .ask request fun reply => (next reply).onFailure events

/-! ## Holding a dialogue -/

/-- How a dialogue ends; it stalls when a request gets no reply. -/
inductive Outcome (α : Type)
  | done (value : α)
  | failed (error : Error)
  | stalled
  deriving DecidableEq, Repr

/-- What was reported, how it ended, and the service afterwards. -/
structure Held (σ α : Type) where
  service : σ
  events : List Event
  outcome : Outcome α

/-- A service takes a request and gives its next state, events of its own, and perhaps a reply. -/
abbrev Service (σ : Type) := σ → Request → σ × List Event × Option Reply

def Held.after {σ : Type} (events : List Event) (h : Held σ α) : Held σ α :=
  { h with events := events ++ h.events }

def against {σ : Type} (serve : Service σ) (d : Dialogue α) (s : σ) : Held σ α :=
  match d with
  | .done x => ⟨s, [], .done x⟩
  | .failed e => ⟨s, [], .failed e⟩
  | .report event next => (next.against serve s).after [event]
  | .ask request next =>
      match serve s request with
      | (s', events, some reply) => ((next reply).against serve s').after events
      | (s', events, none) => ⟨s', events, .stalled⟩

/-! ## One reply at a time -/

/-- The end of a dialogue that asks nothing more. -/
def ending? : Dialogue α → Option (Except Error α)
  | .done x => some (.ok x)
  | .failed e => some (.error e)
  | .report _ next => next.ending?
  | .ask .. => none

/-- The events that a dialogue reports before anything is asked. -/
def opening : Dialogue α → List Event
  | .report event next => event :: next.opening
  | _ => []

/-- A dialogue without its opening. -/
def opened : Dialogue α → Dialogue α
  | .report _ next => next.opened
  | d => d

/-- The request that a dialogue waits at. -/
def pending? : Dialogue α → Option Request
  | .report _ next => next.pending?
  | .ask request _ => some request
  | _ => none

/-- Gives a reply to the request that a dialogue waits at. -/
def resume (d : Dialogue α) (reply : Reply) : Dialogue α :=
  match d with
  | .report _ next => next.resume reply
  | .ask _ next => next reply
  | d => d

end Dialogue
end ApiCatalog
