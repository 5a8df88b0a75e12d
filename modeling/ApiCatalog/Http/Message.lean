import ApiCatalog.Text.Utf8
import ApiCatalog.Uri.Parser

/-!
# Requests and responses

- `Request.make?`   : a request from the texts of its method and uri
- `Status.isFailure` : the statuses that tell a failure
-/

namespace ApiCatalog
namespace Http

/-! ## Status -/

/-- The phrases registered for failures. -/
def phrases : List (Nat × String) :=
  [(400, "Bad Request"), (401, "Unauthorized"), (402, "Payment Required"), (403, "Forbidden"),
    (404, "Not Found"), (405, "Method Not Allowed"), (406, "Not Acceptable"),
    (407, "Proxy Authentication Required"), (408, "Request Timeout"), (409, "Conflict"),
    (410, "Gone"), (411, "Length Required"), (412, "Precondition Failed"),
    (413, "Payload Too Large"), (414, "URI Too Long"), (415, "Unsupported Media Type"),
    (416, "Range Not Satisfiable"), (417, "Expectation Failed"), (418, "I'm a teapot"),
    (421, "Misdirected Request"), (422, "Unprocessable Entity"), (423, "Locked"),
    (424, "Failed Dependency"), (425, "Too Early"), (426, "Upgrade Required"),
    (428, "Precondition Required"), (429, "Too Many Requests"),
    (431, "Request Header Fields Too Large"), (451, "Unavailable For Legal Reasons"),
    (500, "Internal Server Error"), (501, "Not Implemented"), (502, "Bad Gateway"),
    (503, "Service Unavailable"), (504, "Gateway Timeout"), (505, "HTTP Version Not Supported"),
    (506, "Variant Also Negotiates"), (507, "Insufficient Storage"), (508, "Loop Detected"),
    (510, "Not Extended"), (511, "Network Authentication Required")]

/-- A status with its phrase. -/
def statusLine (status : Nat) : String :=
  toString status ++ " " ++ (phrases.lookup status).getD "<unknown status code>"

def notFound : Nat := 404

def isFailure (status : Nat) : Bool :=
  400 ≤ status && status ≤ 599

/-! ## Requests -/

structure Request where
  method : String
  uri : Uri
  body : Octets
  deriving DecidableEq, Repr

/-- Why no request can be made. -/
inductive RequestFault
  | badMethod
  | badUri (fault : Uri.Fault)
  deriving DecidableEq, Repr

def RequestFault.message : RequestFault → String
  | .badMethod => "invalid HTTP method"
  | .badUri fault => fault.message

/-- The characters of a token. -/
def isTokenChar (c : Char) : Bool :=
  Uri.isAlnum c || "!#$%&'*+-.^_`|~".toList.contains c

def isMethod (s : String) : Bool :=
  !s.isEmpty && s.toList.all isTokenChar

namespace Request

/-- The method is looked at before the uri. -/
def make? (method uri : String) (body : Octets) : Except RequestFault Request :=
  if !isMethod method then .error .badMethod
  else
    match Uri.parse uri with
    | .ok u => .ok ⟨method, u, body⟩
    | .error fault => .error (.badUri fault)

/-- A request for a document. -/
def get? (uri : String) : Except RequestFault Request :=
  make? "GET" uri []

/-- A request on one line. -/
def render (r : Request) : String :=
  let line := r.method ++ " " ++ r.uri.render
  if r.body.isEmpty then line else line ++ " " ++ Utf8.repair r.body

end Request

end Http
end ApiCatalog
