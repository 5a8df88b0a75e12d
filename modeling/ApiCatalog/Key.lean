import ApiCatalog.Group
import ApiCatalog.Text.Word

/-!
# Keys

The identity of a resource collection: its root, group, version and name. A version is never
empty; the group is absent for legacy roots.

- `Key.make?`          : a key from its parts
- `Key.ofApiVersion?`  : a key from an api version text, cut at its last slash
- `Key.path`, `Key.apiVersion` : the two ways in which a key is written
-/

namespace ApiCatalog

structure Key where
  root : ApiRoot
  group : Option String
  version : String
  name : String
  deriving DecidableEq, Repr, Hashable

namespace Key

/-! ## Making keys -/

def make? (root : ApiRoot) (group : Option String) (version name : String) :
    Except NamingFault Key :=
  if version.isEmpty then .error .emptyVersion else .ok ⟨root, group, version, name⟩

def ofApiVersion? (root : ApiRoot) (apiVersion name : String) : Except NamingFault Key :=
  let (group, version) := Text.cutLast '/' apiVersion
  make? root group version name

/-! ## Writing keys -/

/-- Group and version in one text. -/
def apiVersion (k : Key) : String :=
  match k.group with
  | some group => group ++ "/" ++ k.version
  | none => k.version

/-- The path of a key, without a leading slash. -/
def path (k : Key) : String :=
  match k.group with
  | some group => k.root.name ++ "/" ++ group ++ "/" ++ k.version ++ "/" ++ k.name
  | none => k.root.name ++ "/" ++ k.version ++ "/" ++ k.name

open Json in
/-- The members that spell out a key. -/
def members (k : Key) : List (String × Value) :=
  [("prefix", Wire.toValue k.root), ("group", (k.group.map .string).getD .null),
    ("version", .string k.version), ("name", .string k.name)]

def toValue (k : Key) : Json.Value :=
  .object k.members

/-! ## Order -/

/-- An absent group comes first. -/
def compareGroups : Option String → Option String → Ordering
  | none, none => .eq
  | none, some _ => .lt
  | some _, none => .gt
  | some a, some b => compare a b

/-- Keys in order of root, group, version and name. -/
def order (a b : Key) : Ordering :=
  (compare a.root.rank b.root.rank).then <|
    (compareGroups a.group b.group).then <|
      (compare a.version b.version).then (compare a.name b.name)

end Key
end ApiCatalog
