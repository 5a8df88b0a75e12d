import ApiCatalog.Proofs.Json.Arrangement
import ApiCatalog.Proofs.Json.Spelling

/-!
# Reading what was printed

A reader undoes the printing of a value when it makes of its outline what the value stands for.
Readers of lists, of optional values and of records do so when the readers of their parts do.

- `Json.Undoes`            : a reader that makes something of a printed value
- `Json.undoes_string`, `Json.undoes_word`, `Json.undoes_list`, `Json.undoes_optional` : the readers
  of simple values and lists
- `Json.Fields.Spells`, `Json.undoes_record` : records, field by field
- `Json.decode_compact`    : whole texts
-/

namespace ApiCatalog
namespace Json

/-- Of the text of `v` the reader makes `x`. -/
def Undoes {α : Type} (read : Outline → Except Fault α) (v : Value) (x : α) : Prop :=
  ∃ o, o.Written v.print ∧ read o = .ok x

variable {α β : Type} {read : Outline → Except Fault α} {v : Value} {x : α}

/-- What is made of the result of a reader is made of the same text. -/
theorem Undoes.bind (h : Undoes read v x) {f : α → Except Fault β} {y : β} (goes : f x = .ok y) :
    Undoes (fun o => read o >>= f) v y := by
  rcases h with ⟨o, written, told⟩
  refine ⟨o, written, ?_⟩
  simp only [told]
  exact goes

theorem decode_compact (h : Undoes read v x) : decode read v.compact = .ok x := by
  rcases h with ⟨o, written, told⟩
  simp [decode, Value.compact, scan_print written, told, bind, Except.bind, pure, Except.pure]

/-! ## Simple values -/

theorem undoes_string (s : String) : Undoes readString (.string s) s :=
  ⟨_, written_string s, text_spelled s⟩

theorem undoes_boolean (b : Bool) : Undoes readBool (.boolean b) b :=
  ⟨_, written_boolean b, rfl⟩

theorem le_ofDigitChars (cs : List Char) (acc : Nat) : acc ≤ Nat.ofDigitChars 10 cs acc := by
  induction cs generalizing acc with
  | nil => simp [Nat.ofDigitChars]
  | cons c rest ih =>
      rw [Nat.ofDigitChars_cons]
      exact Nat.le_trans (by omega) (ih _)

/-- Digits are gathered to the end while the number that they make fits. -/
theorem gather_digits {cs : List Char} {acc : Nat}
    (fits : Nat.ofDigitChars 10 cs acc ≤ Numeral.wordLimit) :
    Numeral.gather acc (cs.map digitValue) = (Nat.ofDigitChars 10 cs acc, []) := by
  induction cs generalizing acc with
  | nil => simp [Numeral.gather, Nat.ofDigitChars]
  | cons c rest ih =>
      rw [Nat.ofDigitChars_cons] at fits ⊢
      have next : 10 * acc + (c.toNat - '0'.toNat) = acc * 10 + digitValue c := by
        simp [digitValue, Nat.mul_comm]
      rw [next] at fits ⊢
      have room := Nat.le_trans (le_ofDigitChars rest _) fits
      rw [List.map_cons, Numeral.gather, if_pos room, ih fits]

theorem value_numeralOf {n : Nat} (fits : n ≤ Numeral.wordLimit) :
    (numeralOf n).value = .ok (.natural n) := by
  have digits : Nat.ofDigitChars 10 (Nat.toDigits 10 n) 0 = n := Nat.ofDigitChars_ten_toDigits
  rw [← digits] at fits
  have gathered := gather_digits fits
  rw [digits] at gathered
  simp [Numeral.value, numeralOf, gathered]

theorem undoes_word (w : UInt16) : Undoes readWord (.number (.natural w.toNat)) w := by
  have small : w.toNat < UInt16.size := w.toNat_lt
  have fits : w.toNat ≤ Numeral.wordLimit := Nat.le_of_lt (Nat.lt_of_lt_of_le small (by decide))
  refine ⟨_, written_natural w.toNat, ?_⟩
  simp [readWord, value_numeralOf fits, small, bind, Except.bind]

/-! ## Optional values and lists -/

theorem undoes_none (read : Outline → Except Fault α) : Undoes (readOptional read) .null none :=
  ⟨_, written_null, rfl⟩

/-- A value is read as present by a reader that makes nothing of `null`. -/
theorem undoes_some (never : ∀ x, read .null ≠ .ok x) (h : Undoes read v x) :
    Undoes (readOptional read) v (some x) := by
  rcases h with ⟨o, written, told⟩
  refine ⟨o, written, ?_⟩
  unfold readOptional
  split
  · exact absurd told (never x)
  · rw [told]
    rfl

theorem undoes_list {print : α → Value} {xs : List α}
    (each : ∀ x ∈ xs, Undoes read (print x) x) :
    Undoes (readList read) (.array (xs.map print)) xs := by
  have outlines : ∃ os, List.Forall₂ (fun v o => o.Written v.print) (xs.map print) os ∧
      (Items.listed os).readAll read = .ok xs := by
    induction xs with
    | nil => exact ⟨[], .nil, rfl⟩
    | cons x rest ih =>
        rcases each x List.mem_cons_self with ⟨o, written, told⟩
        rcases ih fun y mem => each y (List.mem_cons_of_mem x mem) with ⟨os, others, all⟩
        refine ⟨o :: os, .cons written others, ?_⟩
        simp [Items.listed, Items.readAll, told, all, bind, Except.bind, pure, Except.pure]
  rcases outlines with ⟨os, written, all⟩
  exact ⟨_, written_array written, all⟩

/-! ## Records -/

namespace Fields

/-- The record in progress in which every field is filled. -/
def filled : {σ ρ : Type} → Fields σ ρ → ρ → σ
  | _, _, .nil, _ => ()
  | _, _, .cons _ rest, (x, later) => (some x, rest.filled later)

/-- The members spell out the fields of a record, in their order. -/
def Spells : {σ ρ : Type} → Fields σ ρ → List (String × Value) → ρ → Prop
  | _, _, .nil, members, _ => members = []
  | _, _, .cons field rest, members, (x, later) =>
      ∃ v more, members = (field.name, v) :: more ∧ Undoes field.read v x ∧ rest.Spells more later

theorem finish_filled {σ ρ : Type} (fields : Fields σ ρ) (r : ρ) :
    fields.finish (fields.filled r) = .ok r := by
  induction fields with
  | nil => rfl
  | cons field rest ih =>
      rcases r with ⟨x, later⟩
      simp [finish, filled, ih, bind, Except.bind, pure, Except.pure]

/-- Members that spell out a record are printed so that each fills the field of its name. -/
theorem exists_fills {σ ρ : Type} {fields : Fields σ ρ} (distinct : fields.names.Nodup)
    {members : List (String × Value)} {r : ρ} (spells : fields.Spells members r) :
    ∃ os, List.Forall₂ PrintedMember members os ∧
      (∀ m ∈ os, ∃ k ∈ fields.names, m.1.text = .ok k) ∧
      fields.Fills fields.start os (fields.filled r) := by
  induction fields generalizing members with
  | nil =>
      cases spells
      exact ⟨[], .nil, by simp, trivial⟩
  | cons field rest ih =>
      rcases r with ⟨x, later⟩
      rcases spells with ⟨v, more, rfl, ⟨o, written, told⟩, others⟩
      have ⟨fresh, distinct⟩ := List.nodup_cons.1 distinct
      rcases ih distinct others with ⟨os, printed, among, fills⟩
      -- none of the other members has the name of the first field
      have foreign : ∀ m ∈ os, Foreign [field.name] m := by
        intro m mem
        rcases among m mem with ⟨k, known, text⟩
        exact ⟨k, text, fun same => fresh (List.mem_singleton.1 same ▸ known)⟩
      have alone : valuesOf field.name ((spelled field.name, o) :: os) = [o] := by
        rw [valuesOf_cons_self (text_spelled _), valuesOf_foreign List.mem_cons_self foreign]
      refine ⟨(spelled field.name, o) :: os, .cons ⟨rfl, written⟩ printed, ?_, ?_, ?_⟩
      · intro m mem
        rcases List.mem_cons.1 mem with rfl | mem
        · exact ⟨_, List.mem_cons_self, text_spelled _⟩
        · rcases among m mem with ⟨k, known, text⟩
          exact ⟨k, List.mem_cons_of_mem _ known, text⟩
      · rw [alone]
        exact .read told
      · exact (fills_cons_foreign (text_spelled _) fresh).2 fills

theorem readMembers_spelled {σ ρ : Type} {fields : Fields σ ρ} (distinct : fields.names.Nodup)
    {members : List (String × Value)} {r : ρ} (spells : fields.Spells members r) :
    ∃ os, List.Forall₂ PrintedMember members os ∧
      fields.readMembers (.listed os) fields.start = .ok (fields.filled r) := by
  rcases exists_fills distinct spells with ⟨os, printed, among, fills⟩
  refine ⟨os, printed, (readMembers_listed distinct).2 ⟨fun m mem => ?_, fills⟩⟩
  rcases among m mem with ⟨k, known, text⟩
  exact ⟨k, text, .inl known⟩

end Fields

theorem undoes_record {σ ρ : Type} {fields : Fields σ ρ} (distinct : fields.names.Nodup)
    {members : List (String × Value)} {r : ρ} (spells : fields.Spells members r) (title : String) :
    Undoes (fields.read title) (.object members) r := by
  rcases Fields.readMembers_spelled distinct spells with ⟨os, written, fills⟩
  refine ⟨_, written_object written, ?_⟩
  simp [Fields.read, fills, fields.finish_filled, bind, Except.bind]

end Json
end ApiCatalog
