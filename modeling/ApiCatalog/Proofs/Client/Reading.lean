import ApiCatalog.Client
import ApiCatalog.Proofs.Dialogue.Exchange

/-!
# What a reply tells

Every call of a client makes at most one request, and what it returns is decided by the reply alone.

- `Client.textOf`, `Client.documentOf`, `Client.listOf` : the text, the document and the resource
  list that a reply brings, or the error that it amounts to
- `Client.asks_discoveryText`  : a discovery call makes its request and goes by the reply
- `Client.ending?_discoveryText` : without a request to make, it fails before anything is sent
-/

namespace ApiCatalog
namespace Client

open Dialogue (Asks)
open Http (Request)

/-! ## Judgements -/

/-- The error of a failure response. -/
def failureOf (status : Nat) (text : String) : Error :=
  if status = Http.notFound then .notFound (statusOf status text).2
  else .api (statusOf status text).2

/-- The text that a reply brings. -/
def textOf (reply : Reply) : Except Error String := do
  let response ← receive reply
  let text ← readBody response
  if Http.isFailure response.status then .error (failureOf response.status text) else .ok text

def decoded (α : Type) [Wire.Document α] (text : String) : Except Error α :=
  (Wire.decode α text).mapError .undecodable

/-- The document that a reply brings. -/
def documentOf (α : Type) [Wire.Document α] (reply : Reply) : Except Error α :=
  textOf reply >>= decoded α

/-- The list that a text spells; a blank one spells the list without entries. -/
def readList (text : String) : Except Error Wire.ResourceList :=
  if Text.isBlankText text then .ok .empty else decoded Wire.ResourceList text

/-- The resource list that a reply brings. -/
def listOf (reply : Reply) : Except Error Wire.ResourceList :=
  textOf reply >>= readList

/-- A response that brings a document in one piece. -/
@[irreducible]
def served {α : Type} [Wire.Document α] (doc : α) : Reply :=
  .response ⟨200, [Utf8.encode (Wire.encode doc)], none⟩

/-! ## Steps without a request -/

theorem ending?_ofExcept {α : Type} (x : Except Error α) :
    (Dialogue.ofExcept x).ending? = some x := by
  cases x <;> rfl

theorem ending?_tellAll (events : List Event) :
    (Dialogue.tellAll events).ending? = some (.ok ()) := by
  unfold Dialogue.tellAll
  induction events with
  | nil => rfl
  | cons event rest ih => exact ih

theorem ending?_judge (status : Nat) (text : String) :
    (judge status text).ending? =
      some (if Http.isFailure status then .error (failureOf status text) else .ok ()) := by
  unfold judge
  split
  · dsimp only
    rw [Dialogue.bind_eq, Dialogue.ending?_bind, ending?_tellAll]
    rfl
  · rfl

theorem ending?_parse (α : Type) [Wire.Document α] (text : String) :
    (parse α text).ending? = some (decoded α text) := by
  unfold parse decoded
  cases Wire.decode α text <;> rfl

/-! ## One request -/

theorem asks_send (request : Request) : Asks (send request) request receive := by
  have sent := (Asks.exchange request).bind (f := fun reply => .ofExcept (receive reply))
    fun reply => ending?_ofExcept (receive reply)
  exact sent

theorem asks_requestText (request : Request) : Asks (requestText request) request textOf := by
  refine (asks_send request).bind fun response => ?_
  rw [Dialogue.bind_eq, Dialogue.ending?_bind, ending?_ofExcept, Option.bind_some]
  cases readBody response with
  | error e => rfl
  | ok text =>
      dsimp only
      rw [Dialogue.bind_eq, Dialogue.ending?_bind, ending?_judge, Option.bind_some]
      -- a failure response is judged by its status, whatever its text says
      by_cases failure : Http.isFailure response.status
      · simp [failure, bind, Except.bind]
      · simp [failure, bind, Except.bind]
        rfl

theorem asks_discoveryText {path : String} {request : Request}
    (h : Request.get? (discoveryUri path) = .ok request) :
    Asks (discoveryText path) request textOf := by
  have text : Asks ((requestText request).onFailure (denial (discoveryUri path))) request textOf :=
    (asks_requestText request).onFailure _
  -- the report on the size of the text asks nothing and changes nothing
  have counted := text.bind (g := .ok)
    (f := fun text => do
      Dialogue.tell (.received (discoveryUri path) text.utf8ByteSize)
      return text)
    fun _ => rfl
  have same : (fun reply => textOf reply >>= Except.ok) = textOf := by
    funext reply
    cases textOf reply <;> rfl
  rw [same] at counted
  unfold discoveryText
  dsimp only
  rw [h]
  exact counted.report _

theorem ending?_discoveryText {path : String} {fault : Http.RequestFault}
    (h : Request.get? (discoveryUri path) = .error fault) :
    (discoveryText path).ending? = some (.error (.badRequest fault)) := by
  unfold discoveryText
  dsimp only
  rw [h]
  rfl

/-! ## Discovery calls -/

theorem asks_legacyVersions {root : ApiRoot} (legacy : root.isLegacy = true) {request : Request}
    (h : Request.get? (discoveryUri root.name) = .ok request) :
    Asks (legacyVersions root) request (documentOf Wire.Versions) := by
  unfold legacyVersions
  rw [if_pos legacy]
  exact (asks_discoveryText h).bind fun text => ending?_parse Wire.Versions text

theorem asks_groupList {request : Request}
    (h : Request.get? (discoveryUri ApiRoot.apis.name) = .ok request) :
    Asks groupList request (documentOf Wire.GroupList) :=
  (asks_discoveryText h).bind fun text => ending?_parse Wire.GroupList text

theorem asks_resourceList {path : String} {request : Request}
    (h : Request.get? (discoveryUri path) = .ok request) :
    Asks (resourceList path) request listOf := by
  refine (asks_discoveryText h).bind fun text => ?_
  unfold readList
  split
  · rfl
  · exact ending?_parse Wire.ResourceList text

theorem ending?_resourceList {path : String} {fault : Http.RequestFault}
    (h : Request.get? (discoveryUri path) = .error fault) :
    (resourceList path).ending? = some (.error (.badRequest fault)) := by
  unfold resourceList
  rw [Dialogue.bind_eq, Dialogue.ending?_bind, ending?_discoveryText h]
  rfl

end Client
end ApiCatalog
