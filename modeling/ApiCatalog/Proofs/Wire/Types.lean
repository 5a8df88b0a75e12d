import ApiCatalog.Proofs.Json.Arrangement
import ApiCatalog.Proofs.Wire.Content
import ApiCatalog.Mapper

/-!
# Two views of the type of an object

The type of an object is told by two of its members. It can be decoded from the text, where foreign
members are skipped and a member may not be repeated, or looked up in the value that is kept of the
whole text, where everything is kept and the last member of a name counts. Both agree, since what is
kept under a name is the values of the members of that name in their order.

- `Json.Members.keep_listed`  : an object is kept member by member
- `Json.keep_valuesOf`        : the values under a name, skipped or kept
- `Json.lookup?_of_filled`    : what fills a field is found under its name
- `Wire.typed_views_agree`    : the two types of an object
-/

namespace ApiCatalog
namespace Json

variable {depth : Nat} {ms : List (Literal × Outline)} {kept : List (String × Value)}

/-! ## Members that are kept -/

/-- A member is kept as its name and its value. -/
def Keeps (depth : Nat) (m : Literal × Outline) (member : String × Value) : Prop :=
  m.1.text = .ok member.1 ∧ m.2.keep depth = .ok member.2

theorem Members.keep_listed (keeps : (listed ms).keep depth = .ok kept) :
    List.Forall₂ (Keeps depth) ms kept := by
  induction ms generalizing kept with
  | nil =>
      cases keeps
      exact .nil
  | cons m rest ih =>
      rcases bind_eq_ok.1 keeps with ⟨k, named, keeps⟩
      rcases bind_eq_ok.1 keeps with ⟨v, value, keeps⟩
      rcases bind_eq_ok.1 keeps with ⟨later, others, ⟨⟩⟩
      exact .cons ⟨named, value⟩ (ih others)

/-- The values of the members of that name, among those that are kept. -/
def keptUnder (name : String) (kept : List (String × Value)) : List Value :=
  (kept.filter (·.1 == name)).map Prod.snd

/-- Under every name the values are kept in their order. -/
theorem keep_valuesOf (h : List.Forall₂ (Keeps depth) ms kept) (name : String) :
    List.Forall₂ (fun o v => o.keep depth = .ok v) (valuesOf name ms) (keptUnder name kept) := by
  induction h with
  | nil => exact .nil
  | @cons m member rest later first _ ih =>
      by_cases same : member.1 = name
      · subst same
        have more : keptUnder member.1 (member :: later) =
            member.2 :: keptUnder member.1 later := by
          simp [keptUnder]
        rw [valuesOf_cons_self first.1, more]
        exact .cons first.2 ih
      · have others : keptUnder name (member :: later) = keptUnder name later := by
          simp [keptUnder, same]
        rwa [valuesOf_cons_of_ne first.1 same, others]

/-- What is found under a name is the last value that was kept there. -/
theorem Value.lookup?_object (kept : List (String × Value)) (name : String) :
    (Value.object kept).lookup? name = (keptUnder name kept).getLast? := by
  rw [lookup?, ← List.head?_filter, List.filter_reverse, List.head?_reverse, keptUnder,
    List.getLast?_map]

theorem readString_eq_ok {o : Outline} {s : String} :
    readString o = .ok s ↔ ∃ l, o = .string l ∧ l.text = .ok s := by
  cases o <;> simp [readString]

/-- The text that fills a field is found under its name in the value that is kept. A field that is
filled has one member only, so the last of the name is the one that was read. -/
theorem lookup?_of_filled {field : FieldReader String} (reads : field.read = readString)
    {s : String} (filled : field.Filled none (valuesOf field.name ms) (some s))
    (keeps : (Members.listed ms).keep depth = .ok kept) :
    (Value.object kept).lookup? field.name = some (.string s) := by
  have values := keep_valuesOf (Members.keep_listed keeps) field.name
  rw [Value.lookup?_object]
  generalize valuesOf field.name ms = os at filled values
  cases filled with
  | @read o _ told =>
      rw [reads, readString_eq_ok] at told
      rcases told with ⟨l, rfl, text⟩
      rcases List.forall₂_cons_left_iff.1 values with ⟨v, later, value, others, same⟩
      rw [List.forall₂_nil_left_iff] at others
      rw [same, others, List.getLast?_singleton]
      rcases bind_eq_ok.1 value with ⟨s', text', ⟨⟩⟩
      cases text.symm.trans text'
      rfl

end Json

namespace Wire

open Json

variable {text : String} {t : TypeMeta} {v : Value}

/-- A type is decoded from an object whose members fill both fields. -/
theorem TypeMeta.filled {ms : List (Literal × Outline)} (spells : SpellsObject text ms)
    (decodes : decode TypeMeta text = .ok t) :
    (requiredString "apiVersion").Filled none (valuesOf "apiVersion" ms) (some t.apiVersion) ∧
      (requiredString "kind").Filled none (valuesOf "kind" ms) (some t.kind) := by
  rcases (recorded_typeMeta.decode_eq_ok spells).1 decodes with ⟨r, gathered, rfl⟩
  rcases bind_eq_ok.1 gathered with ⟨⟨apiVersion, kind, ⟨⟩⟩, members, closes⟩
  rcases ((Fields.readMembers_listed recorded_typeMeta.distinct).1 members).2 with
    ⟨first, second, -⟩
  -- neither field has anything that stands in for it
  cases apiVersion <;> cases kind <;> cases closes
  exact ⟨first, second⟩

/-- An object is kept with all its members. -/
theorem keep_of_spells {ms : List (Literal × Outline)} (spells : SpellsObject text ms)
    (keeps : Json.decode keepValue text = .ok v) :
    ∃ depth kept, (Members.listed ms).keep depth = .ok kept ∧ v = .object kept := by
  rw [decode_of_spells spells] at keeps
  rcases bind_eq_ok.1 keeps with ⟨kept, members, ⟨⟩⟩
  exact ⟨_, kept, members, rfl⟩

/-- The two views of an object agree. Whatever its members are, in whatever order and however their
names and strings are escaped: where the object is decoded as a type and kept as a value, the value
has strings under both names, which are those of the type. So a mapper that has a catalog tells the
same about both, whether their type is served. -/
theorem typed_views_agree (object : (skipSpace text.toList).head? = some '{')
    (decodes : decode TypeMeta text = .ok t) (keeps : Json.decode keepValue text = .ok v) :
    v.lookup? "apiVersion" = some (.string t.apiVersion) ∧
      v.lookup? "kind" = some (.string t.kind) ∧
      TypeMeta.ofValue v = t ∧
      ∀ (m : Mapper) (catalog : Catalog),
        m.answer catalog (.ofType (.ofValue v)) = m.answer catalog (.ofType t) := by
  rcases recorded_typeMeta.exists_members object decodes with ⟨ms, spells⟩
  -- both start from the same members
  have ⟨versionFilled, kindFilled⟩ := TypeMeta.filled spells decodes
  rcases keep_of_spells spells keeps with ⟨depth, kept, members, rfl⟩
  have version : (Value.object kept).lookup? "apiVersion" = some (.string t.apiVersion) :=
    lookup?_of_filled rfl versionFilled members
  have kind : (Value.object kept).lookup? "kind" = some (.string t.kind) :=
    lookup?_of_filled rfl kindFilled members
  have same : TypeMeta.ofValue (.object kept) = t := by
    simp [TypeMeta.ofValue, Value.textOf, version, kind]
  exact ⟨version, kind, same, fun m catalog => by rw [same]⟩

/-- An object with an escaped name, a foreign member twice and the name of a field deeper down. -/
theorem typed_views_agree_pod :
    let text := "\n\x7b\"spec\":\x7b\"kind\":[1]\x7d,\"k\\u0069nd\":\"P\\u006fd\"," ++
      "\"spec\":null,\"apiVersion\":\"v1\"\x7d"
    ∃ v, Json.decode keepValue text = .ok v ∧ decode TypeMeta text = .ok ⟨"v1", "Pod"⟩ ∧
      TypeMeta.ofValue v = ⟨"v1", "Pod"⟩ := by
  intro text
  have decodes : decode TypeMeta text = .ok ⟨"v1", "Pod"⟩ := by decide +kernel
  have kept : (Json.decode keepValue text).isOk := by decide +kernel
  cases keeps : Json.decode keepValue text with
  | error _ => simp [keeps, Except.isOk, Except.toBool] at kept
  | ok v => exact ⟨v, rfl, decodes, (typed_views_agree (by decide +kernel) decodes keeps).2.2.1⟩

end Wire
end ApiCatalog
