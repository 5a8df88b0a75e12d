import ApiCatalog.ApiRoot
import ApiCatalog.Json.Record

/-!
# Wire documents

The documents that a cluster serves about its apis, each with its reader and its written form.
Fields are read by name; a field that may be absent names what stands in for it.

- `Wire.Document` : what every document offers
- `Wire.decode`   : a document from its text
- `Wire.encode`   : the compact text of a document
-/

namespace ApiCatalog
namespace Wire

open Json

/-! ## Documents in general -/

class Document (α : Type) where
  read : Outline → Except Fault α
  toValue : α → Value

export Document (toValue)

def decode (α : Type) [Document α] (text : String) : Except Fault α :=
  Json.decode (Document.read (α := α)) text

def encode {α : Type} [Document α] (x : α) : String :=
  (toValue x).compact

def strings (xs : List String) : Value :=
  .array (xs.map .string)

def requiredString (name : String) : FieldReader String :=
  ⟨name, readString, none⟩

def optionalString (name : String) : FieldReader String :=
  ⟨name, readString, some ""⟩

/-! ## Versions of a legacy root -/

structure Versions where
  versions : List String
  deriving DecidableEq, Repr

namespace Versions

def fields : Fields (Option (List String) × Unit) (List String × Unit) :=
  .cons ⟨"versions", readList readString, some []⟩ .nil

instance : Document Versions where
  read o := do
    let (versions, ()) ← fields.read "ApiVersions" o
    return ⟨versions⟩
  toValue x := .object [("versions", strings x.versions)]

end Versions

/-! ## Named groups -/

/-- A version of a group; `groupVersion` is the api version text that goes with it. -/
structure GroupVersion where
  groupVersion : String
  version : String
  deriving DecidableEq, Repr

namespace GroupVersion

def fields : Fields (Option String × Option String × Unit) (String × String × Unit) :=
  .cons (optionalString "groupVersion") (.cons (requiredString "version") .nil)

instance : Document GroupVersion where
  read o := do
    let (groupVersion, version, ()) ← fields.read "GroupVersionForDiscovery" o
    return ⟨groupVersion, version⟩
  toValue x := .object [("groupVersion", .string x.groupVersion), ("version", .string x.version)]

end GroupVersion

structure GroupInfo where
  name : String
  versions : List GroupVersion
  preferred : Option GroupVersion
  deriving DecidableEq, Repr

namespace GroupInfo

def fields :
    Fields (Option String × Option (List GroupVersion) × Option (Option GroupVersion) × Unit)
      (String × List GroupVersion × Option GroupVersion × Unit) :=
  .cons (requiredString "name")
    (.cons ⟨"versions", readList Document.read, some []⟩
      (.cons ⟨"preferredVersion", readOptional Document.read, some none⟩ .nil))

def preferredValue : Option GroupVersion → Value
  | none => .null
  | some v => toValue v

instance : Document GroupInfo where
  read o := do
    let (name, versions, preferred, ()) ← fields.read "ApiGroupInfo" o
    return ⟨name, versions, preferred⟩
  toValue x :=
    .object [("name", .string x.name), ("versions", .array (x.versions.map toValue)),
      ("preferredVersion", preferredValue x.preferred)]

end GroupInfo

structure GroupList where
  groups : List GroupInfo
  deriving DecidableEq, Repr

namespace GroupList

def fields : Fields (Option (List GroupInfo) × Unit) (List GroupInfo × Unit) :=
  .cons ⟨"groups", readList Document.read, some []⟩ .nil

instance : Document GroupList where
  read o := do
    let (groups, ()) ← fields.read "ApiGroupList" o
    return ⟨groups⟩
  toValue x := .object [("groups", .array (x.groups.map toValue))]

end GroupList

/-! ## Resources -/

/-- A line of a resource list; a name such as `pods/log` tells a capability of `pods`. -/
structure ResourceEntry where
  name : String
  kind : String
  namespaced : Bool
  deriving DecidableEq, Repr

namespace ResourceEntry

def fields : Fields (Option String × Option String × Option Bool × Unit)
    (String × String × Bool × Unit) :=
  .cons (requiredString "name")
    (.cons (optionalString "kind") (.cons ⟨"namespaced", readBool, some false⟩ .nil))

instance : Document ResourceEntry where
  read o := do
    let (name, kind, namespaced, ()) ← fields.read "ApiResourceEntry" o
    return ⟨name, kind, namespaced⟩
  toValue x :=
    .object [("name", .string x.name), ("kind", .string x.kind),
      ("namespaced", .boolean x.namespaced)]

end ResourceEntry

structure ResourceList where
  groupVersion : String
  resources : List ResourceEntry
  deriving DecidableEq, Repr

namespace ResourceList

def empty : ResourceList := ⟨"", []⟩

def fields : Fields (Option String × Option (List ResourceEntry) × Unit)
    (String × List ResourceEntry × Unit) :=
  .cons (optionalString "groupVersion")
    (.cons ⟨"resources", readList Document.read, some []⟩ .nil)

instance : Document ResourceList where
  read o := do
    let (groupVersion, resources, ()) ← fields.read "ApiResourceList" o
    return ⟨groupVersion, resources⟩
  toValue x :=
    .object [("groupVersion", .string x.groupVersion),
      ("resources", .array (x.resources.map toValue))]

end ResourceList

/-! ## Failures told by the cluster -/

structure Status where
  status : String
  message : String
  reason : String
  code : UInt16
  deriving DecidableEq, Repr

namespace Status

def fields : Fields (Option String × Option String × Option String × Option UInt16 × Unit)
    (String × String × String × UInt16 × Unit) :=
  .cons (requiredString "status")
    (.cons (optionalString "message")
      (.cons (optionalString "reason") (.cons ⟨"code", readWord, none⟩ .nil)))

instance : Document Status where
  read o := do
    let (status, message, reason, code, ()) ← fields.read "ErrorResponse" o
    return ⟨status, message, reason, code⟩
  toValue x :=
    .object [("status", .string x.status), ("message", .string x.message),
      ("reason", .string x.reason), ("code", .number (.natural x.code.toNat))]

def display (s : Status) : String :=
  s!"{s.message}: {s.reason}"

/-- The status with every field spelled out. -/
def inspect (s : Status) : String :=
  "ErrorResponse \x7b status: " ++ Text.quote s.status ++ ", message: " ++ Text.quote s.message
    ++ ", reason: " ++ Text.quote s.reason ++ ", code: " ++ toString s.code.toNat ++ " \x7d"

def isNotFound (s : Status) : Bool :=
  s.code == 404

end Status

/-! ## Typed objects -/

/-- The two members that tell the type of an object. -/
structure TypeMeta where
  apiVersion : String
  kind : String
  deriving DecidableEq, Repr

namespace TypeMeta

def fields : Fields (Option String × Option String × Unit) (String × String × Unit) :=
  .cons (requiredString "apiVersion") (.cons (requiredString "kind") .nil)

instance : Document TypeMeta where
  read o := do
    let (apiVersion, kind, ()) ← fields.read "TypeMeta" o
    return ⟨apiVersion, kind⟩
  toValue x := .object [("apiVersion", .string x.apiVersion), ("kind", .string x.kind)]

/-- The type of any value: a member that is absent or no string counts as empty. -/
def ofValue (v : Value) : TypeMeta :=
  ⟨v.textOf "apiVersion", v.textOf "kind"⟩

end TypeMeta

/-! ## Roots -/

/-- The root of a name as it stands in a document, without slashes. -/
def rootNamed (name : String) : Except Fault ApiRoot :=
  match ApiRoot.ofName? name with
  | some r => .ok r
  | none => .error (.unknownVariant name (ApiRoot.all.map ApiRoot.name))

/-- Reads a root from its name or from an object with the name over `null`. Up to the colon such an
object is read as any other: a string is due, and a text that ends there ends within an object. -/
def readRoot : Outline → Except Fault ApiRoot
  | .absent => .error .endOfValue
  | .string l => do rootNamed (← l.text)
  | .object .close => .error .expectedValue
  | .object (.stop _) => .error .endOfObject
  | .object .unnamed => .error .nameNotString
  | .object (.noColon name atEnd) => do
      let _ ← rootNamed (← name.text)
      .error (colonFault atEnd)
  | .object (.member name value tail) => do
      let root ← rootNamed (← name.text)
      match value, tail with
      | .null, .close => .ok root
      | .null, .stop .ended => .error .endOfObject
      | .null, _ => .error .expectedValue
      | v, _ => .error (v.mismatch "unit")
  | _ => .error .expectedValue

instance : Document ApiRoot where
  read := readRoot
  toValue r := .string r.name

end Wire
end ApiCatalog
