import ApiCatalog.Error

/-!
# Events

What is reported while requests are made, each event with its level, its message and its named
fields.
-/

namespace ApiCatalog

inductive Event
  | discoveryStarted
  | requesting (uri : String)
  | received (uri : String) (octets : Nat)
  | blankList (path : String)
  | groupSkipped (name : String)
  | discoveryCompleted (groups endpoints : Nat)
  | statusReceived (status : Wire.Status)
  | statusReconstructed (status : Wire.Status)
  | statusUnreadable (text : String)
  | documentUnreadable (text : String) (fault : Json.Fault)
  | requestDenied (uri : String) (code : UInt16)
  | connectionFailed (text : String)
  deriving DecidableEq, Repr

inductive Level
  | debug
  | warn
  | error
  deriving DecidableEq, Repr

namespace Event

def level : Event → Level
  | .statusUnreadable _ | .documentUnreadable .. => .warn
  | .requestDenied .. | .connectionFailed _ => .error
  | _ => .debug

def message : Event → String
  | .discoveryStarted => "Starting api discovery"
  | .requesting _ => "Discovery request"
  | .received .. => "Discovery response"
  | .blankList _ => "Empty resource list"
  | .groupSkipped _ => "Skipping api group"
  | .discoveryCompleted .. => "Completed api discovery"
  | .statusReceived s => s!"Unsuccessful: {s.inspect}"
  | .statusReconstructed s => s!"Unsuccessful: {s.inspect} (reconstruct)"
  | .statusUnreadable text => s!"Unsuccessful data error parse: {text}"
  | .documentUnreadable text fault => s!"{text}, Error({Text.quote fault.message}"
  | .requestDenied .. => "Unauthorized exception. Can system:anonymous get the API endpoint?"
  | .connectionFailed _ => "discovery request failed"

def fields : Event → List (String × String)
  | .requesting uri => [("uri", uri)]
  | .received uri octets => [("uri", uri), ("bytes", toString octets)]
  | .blankList path => [("path", path)]
  | .groupSkipped name => [("group", name)]
  | .discoveryCompleted groups endpoints =>
      [("groups", toString groups), ("endpoints", toString endpoints)]
  | .requestDenied uri code => [("uri", uri), ("code", toString code.toNat)]
  | .connectionFailed text => [("err", text)]
  | _ => []

end Event
end ApiCatalog
