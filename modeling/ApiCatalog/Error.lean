import ApiCatalog.Http.Transport
import ApiCatalog.Wire

/-!
# Errors of a client

Every way in which a call can fail, with `Error.message` for its wording. A transport failure is
kept as the text that it shows.
-/

namespace ApiCatalog

/-- Why there is no cluster to talk to. -/
inductive ConfigFault
  | noUrl (name : String)
  | incompleteUrl (url : String)
  deriving DecidableEq, Repr

inductive Error
  | api (status : Wire.Status)
  | notFound (status : Wire.Status)
  | engine (text : String)
  | service (text : String)
  | readTimeout (text : String)
  | notUtf8 (fault : Utf8.Fault)
  | badRequest (fault : Http.RequestFault)
  | badUri (fault : Uri.Fault)
  | undecodable (fault : Json.Fault)
  | config (fault : ConfigFault)
  | missingEndpoint (kind version : String)
  | naming (fault : NamingFault)
  | tlsRequired
  deriving DecidableEq, Repr

/-! ## Wording -/

def ConfigFault.message : ConfigFault → String
  | .noUrl name => s!"Unable to find cluster url, {name} must be defined"
  | .incompleteUrl url => s!"Cluster url {url} has no scheme or authority"

namespace Error

def message : Error → String
  | .api s => s!"ApiError: {s.display} ({s.inspect})"
  | .notFound s => s!"NotFound: {s.display}"
  | .engine text => s!"HyperError: {text}"
  | .service text => s!"ServiceError: {text}"
  | .readTimeout text => s!"ReadTimeout: {text}"
  | .notUtf8 fault => s!"UTF-8 Error: {fault.message}"
  | .badRequest fault => s!"HttpError: {fault.message}"
  | .badUri fault => s!"InvalidUri: {fault.message}"
  | .undecodable fault => s!"Error deserializing response: {fault.message}"
  | .config fault => s!"Error loading config: {fault.message}"
  | .missingEndpoint kind version =>
      s!"Error from discovery: No endpoint found for {kind}, version {version}"
  | .naming fault => s!"Error resolving endpoint: {fault.message}"
  | .tlsRequired => "TLS required but no TLS stack selected"

/-- Whether the error says that the thing asked for is not there. -/
def isNotFound : Error → Bool
  | .notFound _ => true
  | .missingEndpoint .. => true
  | _ => false

end Error

/-! ## Failures of a service -/

/-- The text of a cause; an error of the client shows its own message. -/
def Http.Cause.text : Http.Cause Error → String
  | .timedOut text | .io text | .engine text | .other text => text
  | .own error => error.message

/-- A failure shows the text of its outermost cause. -/
def Http.Failure.text (f : Http.Failure Error) : String :=
  f.outer.text

end ApiCatalog
