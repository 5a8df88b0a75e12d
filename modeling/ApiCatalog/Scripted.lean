import ApiCatalog.Dialogue
import ApiCatalog.Uri.Join

/-!
# Scripted services

A service that answers from a script, for rehearsing dialogues without a network.

- `Script`        : the answers, in order or by path
- `Refusal`       : after how many requests the service stops taking any
- `Scripted.serve` : one request
-/

namespace ApiCatalog

open Http (Request Response)

abbrev Failure := Http.Failure Error

/-! ## Scripts -/

inductive ScriptedAnswer
  | respond (response : Response Error)
  | fail (failure : Failure)
  | hang
  deriving DecidableEq, Repr

/-- Answers in order whatever is asked, or by path; the last answer of a path is repeated. -/
inductive Script
  | inOrder (answers : List ScriptedAnswer)
  | byPath (routes : List (String × List ScriptedAnswer))
  deriving DecidableEq, Repr

namespace Script

/-- The answer when the script has none. -/
def missing : ScriptedAnswer :=
  .respond ⟨Http.notFound, [Utf8.encode "404 page not found"], none⟩

/-- Takes an answer from the front, and leaves the last one in place. -/
def takeRepeating : List ScriptedAnswer → ScriptedAnswer × List ScriptedAnswer
  | [] => (missing, [])
  | [a] => (a, [a])
  | a :: rest => (a, rest)

/-- Takes the answer for a path, and puts the shortened answers back. -/
def takeRoute (path : String) :
    List (String × List ScriptedAnswer) → ScriptedAnswer × List (String × List ScriptedAnswer)
  | [] => (missing, [])
  | (p, answers) :: rest =>
      if p = path then
        let (a, left) := takeRepeating answers
        (a, (p, left) :: rest)
      else
        let (a, rest) := takeRoute path rest
        (a, (p, answers) :: rest)

def take (path : String) : Script → ScriptedAnswer × Script
  | .inOrder [] => (missing, .inOrder [])
  | .inOrder (a :: rest) => (a, .inOrder rest)
  | .byPath routes =>
      let (a, routes) := takeRoute path routes
      (a, .byPath routes)

end Script

/-! ## Services -/

/-- After `after` requests the service takes no more; `told` once a caller was told. -/
structure Refusal where
  after : Nat
  failure : Failure
  told : Bool
  deriving DecidableEq, Repr

/-- How requests travel: straight to the script, joined onto the uri of a cluster, or onto a
connection that nobody takes. -/
inductive Link
  | direct
  | joined (base : Uri)
  | unreachable
  deriving DecidableEq, Repr

/-- `seen` holds the requests that reached the script, the latest first. -/
structure Scripted where
  script : Script
  refusal : Option Refusal
  link : Link
  seen : List Request
  deriving DecidableEq, Repr

namespace Scripted

/-- What a connection that nobody takes shows. -/
def unreachableText : String := "client error (Connect)"

/-- A refusal is passed on under a text of its own. -/
def refused (f : Failure) : Failure :=
  f.wrap ("buffered service failed: " ++ f.text)

/-- The request as it arrives at the script. -/
def arriving (link : Link) (request : Request) : Request :=
  match link with
  | .joined base => { request with uri := (base.join request.uri).toOption.getD request.uri }
  | _ => request

/-- The refusal that is due now, if any. -/
def due? (s : Scripted) : Option Refusal :=
  s.refusal.filter (·.after ≤ s.seen.length)

/-- Serves one request. The first request after a refusal is due was already on its way and fails;
later ones are refused. -/
def serve : Dialogue.Service Scripted := fun s request =>
  match s.link, s.due? with
  | .unreachable, _ =>
      (s, [.connectionFailed unreachableText], some (.failed ⟨.other unreachableText, []⟩))
  | _, some refusal =>
      let f := refused refusal.failure
      if refusal.told then (s, [], some (.refused f))
      else ({ s with refusal := some { refusal with told := true } }, [], some (.failed f))
  | link, none =>
      let request := arriving link request
      let (answer, script) := s.script.take request.uri.path
      let s := { s with script := script, seen := request :: s.seen }
      match answer with
      | .respond response => (s, [], some (.response response))
      | .fail failure => (s, [], some (.failed failure))
      | .hang => (s, [], none)

end Scripted
end ApiCatalog
