import ApiCatalog.Wire

/-!
# Groups

One view of the two families of apis: the versions of a legacy root, and a named group below
`apis` with the version it prefers.
-/

namespace ApiCatalog

inductive Group
  | legacy (root : ApiRoot) (versions : List String)
  | named (name : String) (versions : List String) (preferred : Option String)
  deriving DecidableEq, Repr

namespace Group

/-! ## From documents -/

/-- The version that every legacy root prefers. -/
def legacyPreferred : String := "v1"

/-- The group of a legacy root; `apis` is refused. -/
def ofVersions (root : ApiRoot) (doc : Wire.Versions) : Except NamingFault Group :=
  if root.isLegacy then .ok (.legacy root doc.versions) else .error (.notLegacy root)

def ofInfo (info : Wire.GroupInfo) : Group :=
  .named info.name (info.versions.map (·.version)) (info.preferred.map (·.version))

/-! ## Parts -/

def root : Group → ApiRoot
  | .legacy root _ => root
  | .named .. => .apis

def name : Group → Option String
  | .legacy .. => none
  | .named name .. => some name

def versions : Group → List String
  | .legacy _ versions => versions
  | .named _ versions _ => versions

def preferred : Group → Option String
  | .legacy .. => some legacyPreferred
  | .named _ _ preferred => preferred

/-! ## Paths -/

/-- The path of a group, without a leading slash. -/
def path (g : Group) : String :=
  match g.name with
  | none => g.root.name
  | some name => g.root.name ++ "/" ++ name

/-- The path of the resource list at a version. -/
def pathFor (g : Group) (version : String) : String :=
  g.path ++ "/" ++ version

/-! ## Written form -/

open Json in
def toValue : Group → Value
  | .legacy root versions =>
      .object [("type", .string "Legacy"), ("prefix", Wire.toValue root),
        ("versions", Wire.strings versions)]
  | .named name versions preferred =>
      .object [("type", .string "Named"), ("name", .string name),
        ("versions", Wire.strings versions), ("preferred", (preferred.map .string).getD .null)]

end Group
end ApiCatalog
