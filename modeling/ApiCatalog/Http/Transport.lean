import ApiCatalog.Http.Message

/-!
# Transport

What comes back when a request is sent. A failure is a chain of causes, the outermost first: an
error that was passed on under another error stays in the chain below it.

`ε` is the type of errors of the party that sends; such an error may come back to it from below.
-/

namespace ApiCatalog
namespace Http

/-! ## Failures -/

inductive Cause (ε : Type)
  | timedOut (text : String)
  | io (text : String)
  | engine (text : String)
  | own (error : ε)
  | other (text : String)
  deriving DecidableEq, Repr

structure Failure (ε : Type) where
  outer : Cause ε
  inner : List (Cause ε)
  deriving DecidableEq, Repr

namespace Failure

variable {ε : Type}

def causes (f : Failure ε) : List (Cause ε) :=
  f.outer :: f.inner

/-- Passes a failure on under another text. -/
def wrap (text : String) (f : Failure ε) : Failure ε :=
  ⟨.other text, f.causes⟩

def isTimeout : Cause ε → Bool
  | .timedOut _ => true
  | _ => false

/-- Whether a timeout is anywhere in the chain. -/
def timedOut (f : Failure ε) : Bool :=
  f.causes.any isTimeout

end Failure

/-! ## Replies -/

/-- A response whose body arrives in frames; `broken` is the failure after the last of them. -/
structure Response (ε : Type) where
  status : Nat
  frames : List Octets
  broken : Option (Failure ε)
  deriving DecidableEq, Repr

/-- The service may also refuse a request before it is sent. -/
inductive Reply (ε : Type)
  | response (r : Response ε)
  | failed (f : Failure ε)
  | refused (f : Failure ε)
  deriving DecidableEq, Repr

end Http
end ApiCatalog
