import ApiCatalog.Proofs.Json.Reading
import ApiCatalog.Wire

/-!
# Documents and their texts

Every document is read back from its own text as it was, whatever strings stand in it and however
long its lists are.

- `Wire.Faithful`       : the reader of a document undoes the writing of it
- `Wire.faithful_groupInfo`, … : the documents of a cluster, each from its parts
- `Wire.decode_encode`  : all of them
-/

namespace ApiCatalog
namespace Wire

open Json

/-- The reader of these documents makes of each value that is written the document that it was
written from. -/
def Faithful (α : Type) [Document α] : Prop :=
  ∀ x : α, Undoes Document.read (toValue x) x

/-! ## Documents of strings -/

theorem faithful_root : Faithful ApiRoot := by
  intro root
  refine ⟨_, written_string root.name, ?_⟩
  have named : ApiRoot.ofName? root.name = some root := ApiRoot.ofName?_eq_some_iff.2 rfl
  simp [Document.read, readRoot, text_spelled, rootNamed, named, bind, Except.bind]

theorem undoes_strings (xs : List String) : Undoes (readList readString) (strings xs) xs :=
  undoes_list fun x _ => undoes_string x

theorem faithful_versions : Faithful Versions := by
  intro x
  have spells : Versions.fields.Spells [("versions", strings x.versions)] (x.versions, ()) :=
    ⟨_, _, rfl, undoes_strings x.versions, rfl⟩
  exact (undoes_record (by decide) spells _).bind rfl

theorem faithful_groupVersion : Faithful GroupVersion := by
  intro x
  have spells : GroupVersion.fields.Spells
      [("groupVersion", .string x.groupVersion), ("version", .string x.version)]
      (x.groupVersion, x.version, ()) :=
    ⟨_, _, rfl, undoes_string _, _, _, rfl, undoes_string _, rfl⟩
  exact (undoes_record (by decide) spells _).bind rfl

theorem faithful_typeMeta : Faithful TypeMeta := by
  intro x
  have spells : TypeMeta.fields.Spells
      [("apiVersion", .string x.apiVersion), ("kind", .string x.kind)]
      (x.apiVersion, x.kind, ()) :=
    ⟨_, _, rfl, undoes_string _, _, _, rfl, undoes_string _, rfl⟩
  exact (undoes_record (by decide) spells _).bind rfl

theorem faithful_resourceEntry : Faithful ResourceEntry := by
  intro x
  have spells : ResourceEntry.fields.Spells
      [("name", .string x.name), ("kind", .string x.kind), ("namespaced", .boolean x.namespaced)]
      (x.name, x.kind, x.namespaced, ()) :=
    ⟨_, _, rfl, undoes_string _, _, _, rfl, undoes_string _, _, _, rfl, undoes_boolean _, rfl⟩
  exact (undoes_record (by decide) spells _).bind rfl

theorem faithful_status : Faithful Status := by
  intro x
  have spells : Status.fields.Spells
      [("status", .string x.status), ("message", .string x.message), ("reason", .string x.reason),
        ("code", .number (.natural x.code.toNat))]
      (x.status, x.message, x.reason, x.code, ()) :=
    ⟨_, _, rfl, undoes_string _, _, _, rfl, undoes_string _, _, _, rfl, undoes_string _, _, _, rfl,
      undoes_word _, rfl⟩
  exact (undoes_record (by decide) spells _).bind rfl

/-! ## Documents of documents -/

theorem Faithful.list {α : Type} [Document α] (h : Faithful α) (xs : List α) :
    Undoes (readList Document.read) (.array (xs.map toValue)) xs :=
  undoes_list fun x _ => h x

/-- A group without a preferred version says so with `null`. -/
theorem undoes_preferred (preferred : Option GroupVersion) :
    Undoes (readOptional Document.read) (GroupInfo.preferredValue preferred) preferred := by
  cases preferred with
  | none => exact undoes_none _
  | some v => exact undoes_some nofun (faithful_groupVersion v)

theorem faithful_groupInfo : Faithful GroupInfo := by
  intro x
  have spells : GroupInfo.fields.Spells
      [("name", .string x.name), ("versions", .array (x.versions.map toValue)),
        ("preferredVersion", GroupInfo.preferredValue x.preferred)]
      (x.name, x.versions, x.preferred, ()) :=
    ⟨_, _, rfl, undoes_string _, _, _, rfl, faithful_groupVersion.list _, _, _, rfl,
      undoes_preferred _, rfl⟩
  exact (undoes_record (by decide) spells _).bind rfl

theorem faithful_groupList : Faithful GroupList := by
  intro x
  have spells : GroupList.fields.Spells [("groups", .array (x.groups.map toValue))]
      (x.groups, ()) :=
    ⟨_, _, rfl, faithful_groupInfo.list _, rfl⟩
  exact (undoes_record (by decide) spells _).bind rfl

theorem faithful_resourceList : Faithful ResourceList := by
  intro x
  have spells : ResourceList.fields.Spells
      [("groupVersion", .string x.groupVersion), ("resources", .array (x.resources.map toValue))]
      (x.groupVersion, x.resources, ()) :=
    ⟨_, _, rfl, undoes_string _, _, _, rfl, faithful_resourceEntry.list _, rfl⟩
  exact (undoes_record (by decide) spells _).bind rfl

/-! ## Texts -/

theorem Faithful.decode {α : Type} [Document α] (h : Faithful α) (x : α) :
    decode α (encode x) = .ok x :=
  decode_compact (h x)

/-- Decoding undoes encoding, for every document. -/
theorem decode_encode :
    (∀ x : ApiRoot, decode ApiRoot (encode x) = .ok x) ∧
    (∀ x : Versions, decode Versions (encode x) = .ok x) ∧
    (∀ x : GroupList, decode GroupList (encode x) = .ok x) ∧
    (∀ x : GroupInfo, decode GroupInfo (encode x) = .ok x) ∧
    (∀ x : GroupVersion, decode GroupVersion (encode x) = .ok x) ∧
    (∀ x : ResourceList, decode ResourceList (encode x) = .ok x) ∧
    (∀ x : ResourceEntry, decode ResourceEntry (encode x) = .ok x) ∧
    (∀ x : Status, decode Status (encode x) = .ok x) ∧
    ∀ x : TypeMeta, decode TypeMeta (encode x) = .ok x :=
  ⟨faithful_root.decode, faithful_versions.decode, faithful_groupList.decode,
    faithful_groupInfo.decode, faithful_groupVersion.decode, faithful_resourceList.decode,
    faithful_resourceEntry.decode, faithful_status.decode, faithful_typeMeta.decode⟩

end Wire
end ApiCatalog
