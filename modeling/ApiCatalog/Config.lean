import ApiCatalog.Error

/-!
# Configuration

The uri of a cluster and the time limits for talking to it, in milliseconds; an absent limit is no
limit.

- `Config.ofUrl`         : from the text of a uri
- `Config.ofEnvironment` : from the value of the environment variable
- `Config.connectable`   : whether the default service can talk to the cluster
-/

namespace ApiCatalog

structure Config where
  cluster : Uri
  connectTimeout : Option Nat
  readTimeout : Option Nat
  writeTimeout : Option Nat
  deriving DecidableEq, Repr

namespace Config

/-! ## Defaults -/

/-- The environment variable that holds the uri of the cluster. -/
def urlVariable : String := "KUBEMAP_CLUSTER_URL"

def defaultConnectTimeout : Nat := 30000
def defaultReadTimeout : Nat := 295000

def ofUri (cluster : Uri) : Config :=
  ⟨cluster, some defaultConnectTimeout, some defaultReadTimeout, none⟩

/-! ## Sources -/

/-- Reads a uri, with blank characters around it ignored; only the absolute form will do. -/
def ofUrl (url : String) : Except Error Config :=
  match Uri.parse (Text.trim url) with
  | .error fault => .error (.badUri fault)
  | .ok (.absolute scheme authority target) => .ok (ofUri (.absolute scheme authority target))
  | .ok _ => .error (.config (.incompleteUrl url))

/-- Reads the value of the environment variable; octets that are no text count as no value. -/
def ofEnvironment (value : Option Octets) : Except Error Config :=
  match value.bind (Utf8.decode · |>.toOption) with
  | some url => ofUrl url
  | none => .error (.config (.noUrl urlVariable))

/-! ## The default service -/

/-- The default service has no encryption, so it refuses the one scheme that asks for it. -/
def connectable (c : Config) : Except Error Unit :=
  if c.cluster.scheme? = some "https" then .error .tlsRequired else .ok ()

end Config
end ApiCatalog
