import ApiCatalog.Proofs.Json.Arrangement
import ApiCatalog.Proofs.Wire.RoundTrip

/-!
# Documents by their content

A document that is read from an object is told by what stands under the names of its fields. The
members may come in any order and among foreign ones, and without the member of a field the
document has what stands in for that field, or is refused because the field is missing.

- `Wire.Versions.without`, `Wire.GroupInfo.without`, … : documents without a member
- `Wire.SpellsObject` : the texts of an object
- `Wire.ByContent`    : a document that is decoded by content
- `Wire.documents_by_content` : all of them are
-/

namespace ApiCatalog
namespace Wire

open Json

/-! ## Documents without a member -/

namespace Versions

def without (x : Versions) : String → Except Fault Versions
  | "versions" => .ok { x with versions := [] }
  | name => .error (.missingField name)

end Versions

namespace GroupVersion

def without (x : GroupVersion) : String → Except Fault GroupVersion
  | "groupVersion" => .ok { x with groupVersion := "" }
  | name => .error (.missingField name)

end GroupVersion

namespace GroupInfo

def without (x : GroupInfo) : String → Except Fault GroupInfo
  | "versions" => .ok { x with versions := [] }
  | "preferredVersion" => .ok { x with preferred := none }
  | name => .error (.missingField name)

end GroupInfo

namespace GroupList

def without (x : GroupList) : String → Except Fault GroupList
  | "groups" => .ok { x with groups := [] }
  | name => .error (.missingField name)

end GroupList

namespace ResourceEntry

def without (x : ResourceEntry) : String → Except Fault ResourceEntry
  | "kind" => .ok { x with kind := "" }
  | "namespaced" => .ok { x with namespaced := false }
  | name => .error (.missingField name)

end ResourceEntry

namespace ResourceList

def without (x : ResourceList) : String → Except Fault ResourceList
  | "groupVersion" => .ok { x with groupVersion := "" }
  | "resources" => .ok { x with resources := [] }
  | name => .error (.missingField name)

end ResourceList

namespace Status

def without (x : Status) : String → Except Fault Status
  | "message" => .ok { x with message := "" }
  | "reason" => .ok { x with reason := "" }
  | name => .error (.missingField name)

end Status

namespace TypeMeta

/-- Neither field has anything that stands in for it. -/
def without (_ : TypeMeta) (name : String) : Except Fault TypeMeta :=
  .error (.missingField name)

end TypeMeta

/-! ## Objects -/

/-- The text is an object with these members in this order, with any white space around them. -/
def SpellsObject (text : String) (ms : List (Literal × Outline)) : Prop :=
  Spells text.toList (.object (.listed ms))

theorem exists_spellsObject {ms : List (Literal × Outline)}
    (parts : ∀ m ∈ ms, (∃ s, m.1.Written s) ∧ ∃ s, m.2.Written s) :
    ∃ text, SpellsObject text ms := by
  rcases Members.exists_written parts with ⟨s, inside⟩
  exact ⟨.ofList ('{' :: s), [], '{' :: s, [], blank_nil, .object inside, blank_nil, by simp⟩

/-- A document with these fields that is decoded from an object by content, not by layout; `without`
tells what it is without the member of a field. -/
structure ByContent (α : Type) [Document α] (names : List String)
    (without : α → String → Except Fault α) : Prop where
  /-- Every document is decoded from some object. -/
  described (x : α) : ∃ text ms, SpellsObject text ms ∧ decode α text = .ok x
  /-- An object that a document is decoded from is well formed throughout. -/
  spelled {text : String} {x : α} (object : (skipSpace text.toList).head? = some '{')
    (decodes : decode α text = .ok x) : ∃ ms, SpellsObject text ms
  /-- The members may be put in any order and may have foreign ones with any values among them. -/
  rearranged {text text' : String} {x : α} {ms ms' extra : List (Literal × Outline)}
    (spells : SpellsObject text ms) (decodes : decode α text = .ok x)
    (foreign : ∀ m ∈ extra, Foreign names m) (same : ms'.Perm (ms ++ extra))
    (spells' : SpellsObject text' ms') : decode α text' = .ok x
  /-- A field may lack its member if something stands in for it. -/
  removed {text text' name : String} {x : α} {m : Literal × Outline}
    {before after : List (Literal × Outline)} (spells : SpellsObject text (before ++ m :: after))
    (decodes : decode α text = .ok x) (told : m.1.text = .ok name) (known : name ∈ names)
    (spells' : SpellsObject text' (before ++ after)) : decode α text' = without x name

/-- A document that is made of a record of that title with these fields. -/
structure Recorded (α : Type) [Document α] {σ ρ : Type} (title : String) (fields : Fields σ ρ)
    (build : ρ → α) : Prop where
  reads (o : Outline) : Document.read o = (fields.read title o).map build
  distinct : fields.names.Nodup
  careful : fields.Careful

namespace Recorded

variable {α σ ρ : Type} [Document α] {title : String} {fields : Fields σ ρ} {build : ρ → α}
  {without : α → String → Except Fault α} {o : Outline} {x : α} {text : String}
  {ms : List (Literal × Outline)}

theorem read_eq_ok (h : Recorded α title fields build) :
    Document.read o = .ok x ↔ ∃ r, fields.read title o = .ok r ∧ build r = x := by
  rw [h.reads]
  cases fields.read title o <;> simp [Except.map]

theorem careful_read (h : Recorded α title fields build) :
    Careful (Document.read : Outline → Except Fault α) := by
  intro o x told
  rcases h.read_eq_ok.1 told with ⟨r, gathered, -⟩
  exact Fields.careful_read h.careful title o r gathered

theorem decode_eq_ok (h : Recorded α title fields build) (spells : SpellsObject text ms) :
    decode α text = .ok x ↔
      ∃ r, fields.read title (.object (.listed ms)) = .ok r ∧ build r = x := by
  rw [decode, decode_of_spells spells, h.read_eq_ok]

theorem exists_members (h : Recorded α title fields build)
    (object : (skipSpace text.toList).head? = some '{') (decodes : decode α text = .ok x) :
    ∃ ms, SpellsObject text ms := by
  rcases h.careful_read.spells decodes with ⟨o, spells, -⟩
  rcases Spells.object spells object with ⟨members, rfl⟩
  have passes : members.skip = .ok () := (spells_iff.1 spells).2
  rcases Members.exists_listed passes with ⟨ms, rfl⟩
  exact ⟨ms, spells⟩

/-- A document that is written as an object is decoded from that object. -/
theorem exists_text (h : Recorded α title fields build) (faithful : Faithful α)
    {members : List (String × Value)} (written : toValue x = .object members) :
    ∃ text ms, SpellsObject text ms ∧ decode α text = .ok x := by
  have brace : (skipSpace (encode x).toList).head? = some '{' := by
    simp [encode, written, Value.compact, Value.print, skipSpace, isSpace]
  rcases h.exists_members brace (faithful.decode x) with ⟨ms, spells⟩
  exact ⟨encode x, ms, spells, faithful.decode x⟩

/-- What a record says about its members a document says that is made of it. -/
theorem byContent (h : Recorded α title fields build) (faithful : Faithful α)
    (written : ∀ x : α, ∃ members, toValue x = .object members)
    (removes : fields.names.Forall fun name => ∀ r,
      (fields.without name r).map build = without (build r) name) :
    ByContent α fields.names without where
  described x := by
    rcases written x with ⟨members, written⟩
    exact h.exists_text faithful written
  spelled object decodes := h.exists_members object decodes
  rearranged {text text' x ms ms' extra} spells decodes foreign same spells' := by
    rcases (h.decode_eq_ok spells).1 decodes with ⟨r, gathered, built⟩
    -- a text spells nothing but well formed values
    have passes : (Members.listed ms').skip = .ok () := (spells_iff.1 spells').2
    have wellFormed (m) (mem : m ∈ extra) : m.2.skip = .ok () :=
      Members.skip_of_mem passes (same.symm.subset (List.mem_append_right ms mem))
    have again := Fields.read_rearranged h.distinct gathered foreign wellFormed same
    exact (h.decode_eq_ok spells').2 ⟨r, again, built⟩
  removed {text text' name x m before after} spells decodes told known spells' := by
    rcases (h.decode_eq_ok spells).1 decodes with ⟨r, gathered, rfl⟩
    rw [decode, decode_of_spells spells', h.reads, Fields.read_removed h.distinct gathered told,
      List.forall_iff_forall_mem.1 removes name known]

end Recorded

/-! ## The documents of a cluster -/

theorem recorded_versions : Recorded Versions "ApiVersions" Versions.fields fun r => ⟨r.1⟩ :=
  ⟨fun _ => rfl, by decide, careful_list careful_string, trivial⟩

theorem recorded_groupVersion :
    Recorded GroupVersion "GroupVersionForDiscovery" GroupVersion.fields fun r => ⟨r.1, r.2.1⟩ :=
  ⟨fun _ => rfl, by decide, careful_string, careful_string, trivial⟩

theorem recorded_groupInfo :
    Recorded GroupInfo "ApiGroupInfo" GroupInfo.fields fun r => ⟨r.1, r.2.1, r.2.2.1⟩ :=
  have careful := recorded_groupVersion.careful_read
  ⟨fun _ => rfl, by decide, careful_string, careful_list careful, careful_optional careful,
    trivial⟩

theorem recorded_groupList : Recorded GroupList "ApiGroupList" GroupList.fields fun r => ⟨r.1⟩ :=
  ⟨fun _ => rfl, by decide, careful_list recorded_groupInfo.careful_read, trivial⟩

theorem recorded_resourceEntry :
    Recorded ResourceEntry "ApiResourceEntry" ResourceEntry.fields fun r => ⟨r.1, r.2.1, r.2.2.1⟩ :=
  ⟨fun _ => rfl, by decide, careful_string, careful_string, careful_boolean, trivial⟩

theorem recorded_resourceList :
    Recorded ResourceList "ApiResourceList" ResourceList.fields fun r => ⟨r.1, r.2.1⟩ :=
  ⟨fun _ => rfl, by decide, careful_string, careful_list recorded_resourceEntry.careful_read,
    trivial⟩

theorem recorded_status :
    Recorded Status "ErrorResponse" Status.fields fun r => ⟨r.1, r.2.1, r.2.2.1, r.2.2.2.1⟩ :=
  ⟨fun _ => rfl, by decide, careful_string, careful_string, careful_string, careful_word,
    trivial⟩

theorem recorded_typeMeta : Recorded TypeMeta "TypeMeta" TypeMeta.fields fun r => ⟨r.1, r.2.1⟩ :=
  ⟨fun _ => rfl, by decide, careful_string, careful_string, trivial⟩

/-- Every discovery document, failure and type is decoded by content. -/
theorem documents_by_content :
    ByContent Versions ["versions"] Versions.without ∧
    ByContent GroupList ["groups"] GroupList.without ∧
    ByContent GroupInfo ["name", "versions", "preferredVersion"] GroupInfo.without ∧
    ByContent GroupVersion ["groupVersion", "version"] GroupVersion.without ∧
    ByContent ResourceList ["groupVersion", "resources"] ResourceList.without ∧
    ByContent ResourceEntry ["name", "kind", "namespaced"] ResourceEntry.without ∧
    ByContent Status ["status", "message", "reason", "code"] Status.without ∧
    ByContent TypeMeta ["apiVersion", "kind"] TypeMeta.without :=
  ⟨recorded_versions.byContent faithful_versions (fun _ => ⟨_, rfl⟩) fun _ => rfl,
    recorded_groupList.byContent faithful_groupList (fun _ => ⟨_, rfl⟩) fun _ => rfl,
    recorded_groupInfo.byContent faithful_groupInfo (fun _ => ⟨_, rfl⟩)
      ⟨fun _ => rfl, fun _ => rfl, fun _ => rfl⟩,
    recorded_groupVersion.byContent faithful_groupVersion (fun _ => ⟨_, rfl⟩)
      ⟨fun _ => rfl, fun _ => rfl⟩,
    recorded_resourceList.byContent faithful_resourceList (fun _ => ⟨_, rfl⟩)
      ⟨fun _ => rfl, fun _ => rfl⟩,
    recorded_resourceEntry.byContent faithful_resourceEntry (fun _ => ⟨_, rfl⟩)
      ⟨fun _ => rfl, fun _ => rfl, fun _ => rfl⟩,
    recorded_status.byContent faithful_status (fun _ => ⟨_, rfl⟩)
      ⟨fun _ => rfl, fun _ => rfl, fun _ => rfl, fun _ => rfl⟩,
    recorded_typeMeta.byContent faithful_typeMeta (fun _ => ⟨_, rfl⟩)
      ⟨fun _ => rfl, fun _ => rfl⟩⟩

/-- The members of a version the other way round, with a foreign one between them. -/
theorem documents_by_content_appsV1 :
    let own : List (Literal × Outline) :=
      [(spelled "groupVersion", .string (spelled "apps/v1")),
        (spelled "version", .string (spelled "v1"))]
    let foreign : Literal × Outline := (spelled "served", .array (.item .null .close))
    ∃ text, SpellsObject text (own.reverse.insertIdx 1 foreign) ∧
      decode GroupVersion text = .ok ⟨"apps/v1", "v1"⟩ := by
  intro own foreign
  have name (s : String) : ∃ t, (spelled s).Written t := ⟨_, written_spelled s⟩
  have value (s : String) : ∃ t, (Outline.string (spelled s)).Written t := ⟨_, written_string s⟩
  have list : ∃ t, (Outline.array (.item .null .close)).Written t :=
    ⟨_, .array (.last blank_nil .null blank_nil)⟩
  obtain ⟨text, spells⟩ : ∃ text, SpellsObject text own :=
    exists_spellsObject (by simp [own, name, value])
  obtain ⟨text', spells'⟩ : ∃ text, SpellsObject text (own.reverse.insertIdx 1 foreign) :=
    exists_spellsObject (by simp [own, foreign, name, value, list])
  have decodes : decode GroupVersion text = .ok ⟨"apps/v1", "v1"⟩ := by
    rw [decode, decode_of_spells spells]
    simp [own, Document.read, GroupVersion.fields, Fields.read, Members.listed, Fields.readMembers,
      text_spelled, readString, requiredString, optionalString, Fields.start, Fields.isFilled,
      Fields.put, Fields.finish, bind, Except.bind, pure, Except.pure]
  have others : ∀ m ∈ [foreign], Foreign ["groupVersion", "version"] m := by
    simp [foreign, Foreign, text_spelled]
  have same : (own.reverse.insertIdx 1 foreign).Perm (own ++ [foreign]) :=
    @List.perm_append_comm _ [_, foreign] [_]
  exact ⟨text', spells', documents_by_content.2.2.2.1.rearranged spells decodes others same spells'⟩

end Wire
end ApiCatalog
