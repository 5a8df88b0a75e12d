import Mathlib.Data.List.Perm.Basic
import ApiCatalog.Proofs.Json.Careful

/-!
# Members in any arrangement

What is made of the members of an object is told by the values under each name: a field takes the
one value under its name, and names of no field have values that are only skipped. So the order of
the members makes no difference, foreign members make none, and without its member a field is
open.

- `Json.Fields.readMembers_listed`     : what is read, without a mention of the order
- `Json.Fields.readMembers_rearranged` : members in another order, among foreign ones
- `Json.Fields.read_removed`           : the record without the member of a field
-/

namespace ApiCatalog
namespace Json

/-! ## Members as a list -/

theorem Members.exists_listed : ∀ {members : Members}, members.skip = .ok () →
    ∃ ms, members = listed ms
  | .close, _ => ⟨[], rfl⟩
  | .noColon name atEnd, passes => absurd passes (skip_noColon name atEnd)
  | .member name value _, passes => by
      rcases exists_listed (skip_member.1 passes).2.2 with ⟨ms, rfl⟩
      exact ⟨(name, value) :: ms, rfl⟩

/-- The values of an object that passes pass. -/
theorem Members.skip_of_mem {ms : List (Literal × Outline)} (passes : (listed ms).skip = .ok ())
    {m : Literal × Outline} (mem : m ∈ ms) : m.2.skip = .ok () := by
  induction ms with
  | nil => cases mem
  | cons first rest ih =>
      have parts := skip_member.1 passes
      rcases List.mem_cons.1 mem with rfl | mem
      · exact parts.2.1
      · exact ih parts.2.2 mem

/-- Members of which each is written in some text have a text in any order. -/
theorem Members.exists_written {ms : List (Literal × Outline)}
    (parts : ∀ m ∈ ms, (∃ s, m.1.Written s) ∧ ∃ s, m.2.Written s) :
    ∃ s, (listed ms).Written s := by
  induction ms with
  | nil => exact ⟨_, .close blank_nil⟩
  | cons m rest ih =>
      rcases List.forall_mem_cons.1 parts with ⟨⟨⟨n, name⟩, t, value⟩, others⟩
      rcases ih others with ⟨u, written⟩
      cases rest with
      | nil => exact ⟨_, .last blank_nil name blank_nil blank_nil value blank_nil⟩
      | cons _ _ => exact ⟨_, .more blank_nil name blank_nil blank_nil value blank_nil written⟩

/-- The values of the members of that name. -/
def valuesOf (name : String) (ms : List (Literal × Outline)) : List Outline :=
  (ms.filter fun m => m.1.text = .ok name).map Prod.snd

section ValuesOf

variable {name : String} {m : Literal × Outline}

theorem valuesOf_append (name : String) (ms ms' : List (Literal × Outline)) :
    valuesOf name (ms ++ ms') = valuesOf name ms ++ valuesOf name ms' := by
  simp [valuesOf]

theorem valuesOf_cons_self (told : m.1.text = .ok name) (ms : List (Literal × Outline)) :
    valuesOf name (m :: ms) = m.2 :: valuesOf name ms := by
  simp [valuesOf, told]

theorem valuesOf_cons_of_ne {k : String} (told : m.1.text = .ok k) (other : k ≠ name)
    (ms : List (Literal × Outline)) : valuesOf name (m :: ms) = valuesOf name ms := by
  simp [valuesOf, told, other]

theorem valuesOf_perm {ms ms' : List (Literal × Outline)} (same : ms.Perm ms') (name : String) :
    (valuesOf name ms).Perm (valuesOf name ms') :=
  (same.filter _).map _

/-- A member whose name is none of these. A literal that escapes half of a surrogate pair is no
text, so it names nothing. -/
def Foreign (names : List String) (m : Literal × Outline) : Prop :=
  ∃ k, m.1.text = .ok k ∧ k ∉ names

theorem valuesOf_foreign {names : List String} {k : String} (known : k ∈ names)
    {extra : List (Literal × Outline)} (foreign : ∀ m ∈ extra, Foreign names m) :
    valuesOf k extra = [] := by
  have none (m) (mem : m ∈ extra) : m.1.text ≠ .ok k := by
    intro same
    rcases foreign m mem with ⟨k', told, other⟩
    cases told.symm.trans same
    exact other known
  simpa [valuesOf] using none

end ValuesOf

/-! ## Fields and their values -/

/-- How the values under its name fill a field: at most one does, and only a field that is open. -/
inductive FieldReader.Filled {α : Type} (field : FieldReader α) :
    Option α → List Outline → Option α → Prop
  | kept (slot : Option α) : Filled field slot [] slot
  | read {o : Outline} {x : α} (told : field.read o = .ok x) : Filled field none [o] (some x)

namespace FieldReader

variable {α : Type} {field : FieldReader α} {slot slot' : Option α} {o : Outline}
  {os : List Outline}

theorem filled_nil : field.Filled slot [] slot' ↔ slot = slot' := by
  constructor
  · rintro ⟨⟩
    rfl
  · rintro rfl
    exact .kept slot

theorem filled_cons : field.Filled slot (o :: os) slot' ↔
    slot = none ∧ ∃ x, field.read o = .ok x ∧ field.Filled (some x) os slot' := by
  constructor
  · rintro ⟨⟩
    case read x told => exact ⟨rfl, x, told, .kept _⟩
  · rintro ⟨rfl, x, told, ⟨⟩⟩
    exact .read told

theorem Filled.length_le (h : field.Filled slot os slot') : os.length ≤ 1 := by
  cases h <;> simp

theorem Filled.alone {before after : List Outline}
    (h : field.Filled slot (before ++ o :: after) slot') : before ++ after = [] := by
  have short := h.length_le
  rw [List.length_append, List.length_cons] at short
  rw [← List.length_eq_zero_iff, List.length_append]
  omega

theorem Filled.perm {os' : List Outline} (h : field.Filled slot os slot') (same : os'.Perm os) :
    field.Filled slot os' slot' := by
  cases h with
  | kept => simpa [same.eq_nil] using Filled.kept slot
  | read told => simpa [same.eq_singleton] using Filled.read told

end FieldReader

namespace Fields

/-- How members fill a record in progress, field by field. -/
def Fills : {σ ρ : Type} → Fields σ ρ → σ → List (Literal × Outline) → σ → Prop
  | _, _, .nil, _, _, _ => True
  | _, _, .cons field rest, (slot, later), ms, (slot', later') =>
      field.Filled slot (valuesOf field.name ms) slot' ∧ rest.Fills later ms later'

variable {σ ρ : Type} {fields : Fields σ ρ} {s s' : σ} {ms ms' : List (Literal × Outline)}
  {name : String} {m : Literal × Outline}

theorem fills_nil : fields.Fills s [] s' ↔ s = s' := by
  induction fields with
  | nil => exact ⟨fun _ => rfl, fun _ => trivial⟩
  | cons field rest ih =>
      rcases s with ⟨slot, later⟩
      rcases s' with ⟨slot', later'⟩
      simp [Fills, valuesOf, FieldReader.filled_nil, ih]

theorem Fills.mono (h : fields.Fills s ms s')
    (same : ∀ k ∈ fields.names, (valuesOf k ms').Perm (valuesOf k ms)) :
    fields.Fills s ms' s' := by
  induction fields with
  | nil => trivial
  | cons field rest ih =>
      refine ⟨h.1.perm (same _ List.mem_cons_self), ih h.2 fun k known => ?_⟩
      exact same k (List.mem_cons_of_mem _ known)

/-- A member of a foreign name fills nothing. -/
theorem fills_cons_foreign (told : m.1.text = .ok name) (foreign : name ∉ fields.names) :
    fields.Fills s (m :: ms) s' ↔ fields.Fills s ms s' := by
  have same : ∀ k ∈ fields.names, valuesOf k (m :: ms) = valuesOf k ms := fun k known =>
    valuesOf_cons_of_ne told (fun same => foreign (same ▸ known)) ms
  constructor
  · exact fun h => h.mono fun k known => (same k known).symm ▸ .refl _
  · exact fun h => h.mono fun k known => same k known ▸ .refl _

/-! ## One member after another -/

/-- The value of a foreign name is skipped. -/
theorem put_foreign (foreign : name ∉ fields.names) {o : Outline} :
    fields.put name o s = .ok s' ↔ o.skip = .ok () ∧ s = s' := by
  induction fields with
  | nil =>
      rw [put, bind_eq_ok]
      constructor
      · rintro ⟨_, passes, -⟩
        exact ⟨passes, rfl⟩
      · rintro ⟨passes, -⟩
        exact ⟨(), passes, rfl⟩
  | cons field rest ih =>
      rcases s with ⟨slot, later⟩
      simp only [names, List.mem_cons, not_or] at foreign
      simp [put, Ne.symm foreign.1, bind_eq_ok, ih foreign.2, pure, Except.pure]

theorem isFilled_foreign (foreign : name ∉ fields.names) (s : σ) :
    fields.isFilled name s = false := by
  induction fields with
  | nil => rfl
  | cons field rest ih =>
      simp only [names, List.mem_cons, not_or] at foreign
      simp [isFilled, Ne.symm foreign.1, ih foreign.2]

/-- A member of a known name fills its field, and the others fill what that leaves open. -/
theorem fills_cons_known (distinct : fields.names.Nodup) (told : m.1.text = .ok name)
    (known : name ∈ fields.names) :
    fields.Fills s (m :: ms) s' ↔ fields.isFilled name s = false ∧
      ∃ grown, fields.put name m.2 s = .ok grown ∧ fields.Fills grown ms s' := by
  induction fields with
  | nil => cases known
  | cons field rest ih =>
      rcases s with ⟨slot, later⟩
      rcases s' with ⟨slot', later'⟩
      have ⟨fresh, distinct⟩ := List.nodup_cons.1 distinct
      by_cases same : field.name = name
      · -- names are distinct, so for the other fields the member is foreign
        subst same
        simp only [Fills, valuesOf_cons_self told, FieldReader.filled_cons,
          fills_cons_foreign told fresh, isFilled, put, if_true, bind_eq_ok,
          Option.isSome_eq_false_iff, Option.isNone_iff_eq_none]
        constructor
        · rintro ⟨⟨free, x, read, filled⟩, others⟩
          exact ⟨free, _, ⟨x, read, rfl⟩, filled, others⟩
        · rintro ⟨free, _, ⟨x, read, ⟨⟩⟩, filled, others⟩
          exact ⟨⟨free, x, read, filled⟩, others⟩
      · have known : name ∈ rest.names := by
          simpa [names, Ne.symm same] using known
        simp only [Fills, valuesOf_cons_of_ne told (Ne.symm same), ih distinct known, isFilled, put,
          if_neg same, bind_eq_ok]
        constructor
        · rintro ⟨filled, free, grown, stored, others⟩
          exact ⟨free, _, ⟨grown, stored, rfl⟩, filled, others⟩
        · rintro ⟨free, _, ⟨grown, stored, ⟨⟩⟩, filled, others⟩
          exact ⟨filled, free, grown, stored, others⟩

/-- The first member is put into its field or skipped, and the others go on from there. -/
theorem readMembers_cons_iff (told : m.1.text = .ok name) :
    fields.readMembers (.listed (m :: ms)) s = .ok s' ↔ fields.isFilled name s = false ∧
      ∃ grown, fields.put name m.2 s = .ok grown ∧
        fields.readMembers (.listed ms) grown = .ok s' := by
  have first : fields.readMembers (.listed (m :: ms)) s =
      if fields.isFilled name s then .error (.duplicateField name)
      else fields.put name m.2 s >>= fields.readMembers (.listed ms) := by
    simp only [Members.listed, readMembers, told, bind, Except.bind]
  rw [first]
  split
  · next filled => simp [filled]
  · next free => simp [free, bind_eq_ok]

/-- Whether a member may stand in the object: its name is a text, and if it is no field's then its
value is well formed. -/
def Admits (fields : Fields σ ρ) (m : Literal × Outline) : Prop :=
  ∃ k, m.1.text = .ok k ∧ (k ∈ fields.names ∨ m.2.skip = .ok ())

theorem admits_foreign (told : m.1.text = .ok name) (foreign : name ∉ fields.names) :
    fields.Admits m ↔ m.2.skip = .ok () := by
  simp [Admits, told, foreign]

/-- What is read from the members of an object depends on the values under each name only. -/
theorem readMembers_listed (distinct : fields.names.Nodup) :
    fields.readMembers (.listed ms) s = .ok s' ↔
      (∀ m ∈ ms, fields.Admits m) ∧ fields.Fills s ms s' := by
  -- every member leaves another record in progress, from which the others are read
  induction ms generalizing s with
  | nil => simp [Members.listed, readMembers, fills_nil]
  | cons m rest ih =>
      rcases told : m.1.text with fault | k
      · -- a name that is no text
        simp [Members.listed, readMembers, told, Admits, bind, Except.bind]
      · rw [readMembers_cons_iff told, List.forall_mem_cons]
        by_cases known : k ∈ fields.names
        · have admitted : fields.Admits m := ⟨k, told, .inl known⟩
          simp only [fills_cons_known distinct told known, ih, admitted, true_and]
          constructor
          · rintro ⟨free, grown, stored, others, filled⟩
            exact ⟨others, free, grown, stored, filled⟩
          · rintro ⟨others, free, grown, stored, filled⟩
            exact ⟨free, grown, stored, others, filled⟩
        · simp [isFilled_foreign known, put_foreign known, admits_foreign told known,
            fills_cons_foreign told known, ih, and_assoc]

/-! ## Another arrangement -/

theorem readMembers_rearranged (distinct : fields.names.Nodup)
    (reads : fields.readMembers (.listed ms) s = .ok s') {extra : List (Literal × Outline)}
    (foreign : ∀ m ∈ extra, Foreign fields.names m) (wellFormed : ∀ m ∈ extra, m.2.skip = .ok ())
    (same : ms'.Perm (ms ++ extra)) : fields.readMembers (.listed ms') s = .ok s' := by
  rw [readMembers_listed distinct] at reads ⊢
  refine ⟨fun m mem => ?_, reads.2.mono fun k known => ?_⟩
  · rcases List.mem_append.1 (same.subset mem) with mem | mem
    · exact reads.1 m mem
    · rcases foreign m mem with ⟨k, told, -⟩
      exact ⟨k, told, .inr (wellFormed m mem)⟩
  · -- foreign members add no value under the name of a field
    have values := valuesOf_perm same k
    rwa [valuesOf_append, valuesOf_foreign known foreign, List.append_nil] at values

theorem read_rearranged (distinct : fields.names.Nodup) {title : String} {r : ρ}
    (reads : fields.read title (.object (.listed ms)) = .ok r) {extra : List (Literal × Outline)}
    (foreign : ∀ m ∈ extra, Foreign fields.names m) (wellFormed : ∀ m ∈ extra, m.2.skip = .ok ())
    (same : ms'.Perm (ms ++ extra)) : fields.read title (.object (.listed ms')) = .ok r := by
  rcases bind_eq_ok.1 reads with ⟨s, gathered, closes⟩
  exact bind_eq_ok.2 ⟨s, readMembers_rearranged distinct gathered foreign wellFormed same, closes⟩

/-! ## Without a member -/

/-- The record in progress in which that field is open. -/
def clear : {σ ρ : Type} → Fields σ ρ → String → σ → σ
  | _, _, .nil, _, _ => ()
  | _, _, .cons field rest, name, (slot, later) =>
      if field.name = name then (none, later) else (slot, rest.clear name later)

/-- The record with what stands in for that field, if anything does. -/
def without : {σ ρ : Type} → Fields σ ρ → String → ρ → Except Fault ρ
  | _, _, .nil, _, _ => .ok ()
  | _, _, .cons field rest, name, (x, later) =>
      if field.name = name then
        match field.absent with
        | some y => .ok (y, later)
        | none => .error (.missingField name)
      else do return (x, ← rest.without name later)

theorem finish_clear {r : ρ} (closes : fields.finish s = .ok r) (name : String) :
    fields.finish (fields.clear name s) = fields.without name r := by
  induction fields with
  | nil => rfl
  | cons field rest ih =>
      rcases s with ⟨slot, later⟩
      rcases r with ⟨x, later'⟩
      unfold finish at closes
      split at closes
      case h_2 => cases closes
      case h_1 y given =>
        rcases bind_eq_ok.1 closes with ⟨more, others, same⟩
        cases same
        by_cases named : field.name = name
        · -- the stand-in is all that is left; without one the field is missing
          subst named
          cases absent : field.absent <;>
            simp [clear, finish, without, absent, others, bind, Except.bind, pure, Except.pure]
        · simp [clear, finish, without, named, given, ih others]

/-- Without its member a field is open, and the others are as they were. -/
theorem fills_removed {before after : List (Literal × Outline)} (distinct : fields.names.Nodup)
    (filled : fields.Fills fields.start (before ++ m :: after) s) (told : m.1.text = .ok name) :
    fields.Fills fields.start (before ++ after) (fields.clear name s) := by
  induction fields with
  | nil => trivial
  | cons field rest ih =>
      rcases s with ⟨slot, later⟩
      rcases filled with ⟨first, others⟩
      have ⟨fresh, distinct⟩ := List.nodup_cons.1 distinct
      by_cases named : field.name = name
      · subst named
        -- the member was the only one of its name
        rw [valuesOf_append, valuesOf_cons_self told] at first
        have none : valuesOf field.name (before ++ after) = [] := by
          rw [valuesOf_append, first.alone]
        rw [clear, if_pos rfl]
        refine ⟨none ▸ .kept _, others.mono fun k known => ?_⟩
        have other : field.name ≠ k := fun same => fresh (same ▸ known)
        simp only [valuesOf_append, valuesOf_cons_of_ne told other, List.Perm.refl]
      · rw [clear, if_neg named]
        refine ⟨?_, ih distinct others⟩
        rwa [valuesOf_append, valuesOf_cons_of_ne told (Ne.symm named), ← valuesOf_append] at first

theorem read_removed {before after : List (Literal × Outline)} {title : String} {r : ρ}
    (distinct : fields.names.Nodup)
    (reads : fields.read title (.object (.listed (before ++ m :: after))) = .ok r)
    (told : m.1.text = .ok name) :
    fields.read title (.object (.listed (before ++ after))) = fields.without name r := by
  rcases bind_eq_ok.1 reads with ⟨s, gathered, closes⟩
  rw [readMembers_listed distinct] at gathered
  have fewer : before ++ after ⊆ before ++ m :: after :=
    ((List.sublist_cons_self m after).append_left before).subset
  have removed : fields.readMembers (.listed (before ++ after)) fields.start =
      .ok (fields.clear name s) :=
    (readMembers_listed distinct).2
      ⟨fun m' mem => gathered.1 m' (fewer mem), fills_removed distinct gathered.2 told⟩
  simp [Fields.read, removed, finish_clear closes, bind, Except.bind]

end Fields

end Json
end ApiCatalog
