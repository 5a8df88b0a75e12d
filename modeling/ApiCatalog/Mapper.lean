import ApiCatalog.Discovery
import ApiCatalog.Lookup

/-!
# Mapper

Questions about a catalog: which endpoint serves a kind, whether one does, and what there is.
-/

namespace ApiCatalog

/-- The settings of a mapper: which groups it scans, and the versions it assumes. -/
structure Mapper where
  mode : Discovery.Mode
  preferred : Preferred
  deriving DecidableEq, Repr

namespace Mapper

def default : Mapper :=
  ⟨Discovery.everything, Preferred.default⟩

instance : Inhabited Mapper :=
  ⟨default⟩

/-! ## Settings -/

inductive Setting
  | filter (names : List String)
  | exclude (names : List String)
  | prefer (root : ApiRoot) (version : String)
  deriving DecidableEq, Repr

/-- The last filter or exclusion counts. -/
def apply (m : Mapper) : Setting → Except NamingFault Mapper
  | .filter names => .ok { m with mode := .allow names }
  | .exclude names => .ok { m with mode := .block names }
  | .prefer root version => do return { m with preferred := ← m.preferred.override root version }

def applyAll (m : Mapper) (settings : List Setting) : Except NamingFault Mapper :=
  settings.foldlM apply m

/-! ## Queries -/

inductive Query
  | endpointFor (version kind : String)
  | isSupported (version kind : String)
  | endpoints
  | groups
  | size
  deriving DecidableEq, Repr

inductive Answer
  | endpoint (e : Endpoint)
  | supported (b : Bool)
  | endpoints (es : List Endpoint)
  | groups (gs : List Group)
  | size (n : Nat)
  deriving DecidableEq, Repr

/-- Whether a legacy root serves a kind at its preferred version. -/
def Query.ofKind (kind : String) : Query :=
  .isSupported "" kind

/-- Whether the type of an object is served. -/
def Query.ofType (t : Wire.TypeMeta) : Query :=
  .isSupported t.apiVersion t.kind

def find (m : Mapper) (c : Catalog) (version kind : String) : Except Error (Option Endpoint) :=
  (c.registry.resolve m.preferred version kind).mapError .naming

def endpointFor (m : Mapper) (c : Catalog) (version kind : String) : Except Error Endpoint := do
  match ← m.find c version kind with
  | some e => return e
  | none => throw (.missingEndpoint kind version)

def isSupported (m : Mapper) (c : Catalog) (version kind : String) : Except Error Bool := do
  return (← m.find c version kind).isSome

/-- Answers a query from a catalog. -/
def answer (m : Mapper) (c : Catalog) : Query → Except Error Answer
  | .endpointFor version kind => return .endpoint (← m.endpointFor c version kind)
  | .isSupported version kind => return .supported (← m.isSupported c version kind)
  | .endpoints => return .endpoints c.registry.toList
  | .groups => return .groups c.groups
  | .size => return .size c.registry.size

end Mapper
end ApiCatalog
