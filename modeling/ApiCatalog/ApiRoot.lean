import ApiCatalog.Text.Blank

/-!
# Api roots

The three paths under which a cluster serves its apis, and the ways in which a name of something
served there can be refused.
-/

namespace ApiCatalog

/-! ## Roots -/

/-- `api` and `oapi` serve versions directly, `apis` serves named groups. -/
inductive ApiRoot
  | api
  | oapi
  | apis
  deriving DecidableEq, Repr, Hashable

/-- Why a root, a group or a key is refused. -/
inductive NamingFault
  | emptyVersion
  | notLegacy (root : ApiRoot)
  | unknownRoot (text : String)
  deriving DecidableEq, Repr

namespace ApiRoot

/-- The roots without named groups, in the order in which they are searched. -/
def legacy : List ApiRoot :=
  [.api, .oapi]

def isLegacy : ApiRoot → Bool
  | .apis => false
  | _ => true

def name : ApiRoot → String
  | .api => "api"
  | .oapi => "oapi"
  | .apis => "apis"

/-- Position in the order of roots. -/
def rank : ApiRoot → Nat
  | .api => 0
  | .oapi => 1
  | .apis => 2

def all : List ApiRoot :=
  [.api, .oapi, .apis]

def ofName? (s : String) : Option ApiRoot :=
  all.find? (·.name == s)

theorem ofName?_eq_some_iff {s : String} {r : ApiRoot} : ofName? s = some r ↔ s = r.name := by
  constructor
  · intro h
    have named := List.find?_some h
    exact (beq_iff_eq.1 named).symm
  · rintro rfl
    cases r <;> decide

/-- Reads the name of a root, with slashes around it ignored. -/
def parse (s : String) : Except NamingFault ApiRoot :=
  let bare := Text.dropTrailing '/' (Text.dropLeading '/' s)
  match ofName? bare with
  | some r => .ok r
  | none => .error (.unknownRoot bare)

end ApiRoot

/-! ## Wording -/

def NamingFault.message : NamingFault → String
  | .emptyVersion => "version can not be empty when creating a resource key"
  | .notLegacy root => s!"{root.name} is not a legacy api prefix"
  | .unknownRoot text => s!"unknown api prefix: {text}"

end ApiCatalog
