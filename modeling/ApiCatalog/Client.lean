import ApiCatalog.Dialogue

/-!
# Client

One request at a time, with the handling of failures that all calls share.

- `Client.receive`, `Client.readBody` : what a reply and a body mean
- `Client.judge`                      : which responses are failures
- `Client.requestText`, `Client.requestDocument` : a request for a text, for a document
- `Client.legacyVersions`, `Client.groupList`, `Client.resourceList` : the three discovery calls
-/

namespace ApiCatalog
namespace Client

open Http (Request Response)

/-! ## Replies -/

/-- The error of a failure below: a timeout anywhere in its chain makes it a timeout. -/
def transportError (f : Http.Failure Error) : Error :=
  if f.timedOut then .readTimeout f.text
  else
    match f.outer with
    | .engine text => .engine text
    | _ => .service f.text

/-- The response of a reply. An error of this library that comes back as the outermost cause is
returned as it is. -/
def receive : Reply → Except Error (Response Error)
  | .response r => .ok r
  | .refused f => .error (.service f.text)
  | .failed f =>
      match f.outer with
      | .own error => .error error
      | _ => .error (transportError f)

/-- The error of a body that breaks off. -/
def bodyError (f : Http.Failure Error) : Error :=
  if f.timedOut then .readTimeout f.text else .service f.text

/-- The octets of a body that is read to its end. -/
def readOctets (r : Response Error) : Except Error Octets :=
  match r.broken with
  | some f => .error (bodyError f)
  | none => .ok r.frames.flatten

/-- The text of a body. -/
def readBody (r : Response Error) : Except Error String := do
  let octets ← readOctets r
  match Utf8.decode octets with
  | .ok text => return text
  | .error fault => throw (.notUtf8 fault)

/-! ## Failure responses -/

/-- The status that stands in for a failure response without one. -/
def reconstructed (status : Nat) (text : String) : Wire.Status :=
  ⟨Http.statusLine status, Text.quote text, "Failed to parse error data", .ofNat status⟩

/-- The status that a failure response tells, and the events that go with finding it. -/
def statusOf (status : Nat) (text : String) : List Event × Wire.Status :=
  match Wire.decode Wire.Status text with
  | .ok s => ([.statusReceived s], s)
  | .error _ =>
      let s := reconstructed status text
      ([.statusUnreadable text, .statusReconstructed s], s)

/-- Fails for a response whose status tells a failure. The status of the response alone decides
whether that is an absence. -/
def judge (status : Nat) (text : String) : Dialogue Unit :=
  if Http.isFailure status then do
    let (events, s) := statusOf status text
    Dialogue.tellAll events
    .failed (if status = Http.notFound then .notFound s else .api s)
  else return ()

/-! ## Requests -/

def send (request : Request) : Dialogue (Response Error) := do
  Dialogue.ofExcept (receive (← Dialogue.exchange request))

def requestText (request : Request) : Dialogue String := do
  let response ← send request
  let text ← Dialogue.ofExcept (readBody response)
  judge response.status text
  return text

/-- Reads a document from a text. -/
def parse (α : Type) [Wire.Document α] (text : String) : Dialogue α :=
  match Wire.decode α text with
  | .ok x => .done x
  | .error fault => .report (.documentUnreadable text fault) (.failed (.undecodable fault))

def requestDocument (α : Type) [Wire.Document α] (request : Request) : Dialogue α := do
  parse α (← requestText request)

/-! ## Discovery calls -/

/-- The uri of a path below the root of a cluster. -/
def discoveryUri (path : String) : String :=
  "/" ++ Text.dropLeading '/' path

/-- Reports a failure other than an absence. -/
def denial (uri : String) : Error → List Event
  | .api s => [.requestDenied uri s.code]
  | _ => []

/-- Asks for the text at a path. -/
def discoveryText (path : String) : Dialogue String := do
  let uri := discoveryUri path
  Dialogue.tell (.requesting uri)
  match Request.get? uri with
  | .error fault => .failed (.badRequest fault)
  | .ok request =>
      let text ← (requestText request).onFailure (denial uri)
      Dialogue.tell (.received uri text.utf8ByteSize)
      return text

/-- The versions of a legacy root; `apis` is refused without a request. -/
def legacyVersions (root : ApiRoot) : Dialogue Wire.Versions := do
  if root.isLegacy then parse Wire.Versions (← discoveryText root.name)
  else .failed (.naming (.notLegacy root))

/-- The named groups. -/
def groupList : Dialogue Wire.GroupList := do
  parse Wire.GroupList (← discoveryText ApiRoot.apis.name)

/-- The resources at a path; a blank text is an empty list. -/
def resourceList (path : String) : Dialogue Wire.ResourceList := do
  let text ← discoveryText path
  if Text.isBlankText text then
    Dialogue.tell (.blankList path)
    return .empty
  else parse Wire.ResourceList text

end Client
end ApiCatalog
