import ApiCatalog.Json.Record
import ApiCatalog.Proofs.Json.Acceptance

/-!
# Readers that take nothing malformed

A reader is careful when every outline that it makes something of would also pass as a skipped
value. The readers of simple values are careful, and those of lists and records are when the readers
of their parts are.

- `Json.Careful` : the property
- `Json.careful_string`, `Json.careful_list`, `Json.Fields.careful_read`, … : readers that have it
- `Json.Careful.spells` : what is decoded is spelled by the text
-/

namespace ApiCatalog
namespace Json

def Careful {α : Type} (read : Outline → Except Fault α) : Prop :=
  ∀ o x, read o = .ok x → o.skip = .ok ()

/-- Steps that succeed go by way of a result of the first. -/
theorem bind_eq_ok {α β : Type} {first : Except Fault α} {next : α → Except Fault β} {y : β} :
    first >>= next = .ok y ↔ ∃ x, first = .ok x ∧ next x = .ok y := by
  cases first <;> simp [Bind.bind, Except.bind]

/-- The results of a reader that is careful may be used in any way. -/
theorem Careful.bind {α β : Type} {read : Outline → Except Fault α} (careful : Careful read)
    (f : α → Except Fault β) : Careful fun o => read o >>= f := by
  intro o y told
  rcases bind_eq_ok.1 told with ⟨x, first, -⟩
  exact careful o x first

/-! ## Simple values -/

/-- Only a literal that ends has a text. -/
theorem closed_of_joinPieces {ending : Ending} {ps : List Piece} {cs : List Char}
    (joined : joinPieces ending ps = .ok cs) : ending = .closed := by
  fun_induction joinPieces ending ps generalizing cs with
  | case1 => assumption
  | case6 c rest ih =>
      rcases bind_eq_ok.1 joined with ⟨ds, later, -⟩
      exact ih later
  | case8 n rest _ _ ih =>
      rcases bind_eq_ok.1 joined with ⟨ds, later, -⟩
      exact ih later
  | case9 n _ _ m rest _ ih =>
      -- a pair of surrogates
      rcases bind_eq_ok.1 joined with ⟨ds, later, -⟩
      exact ih later
  | _ => cases joined

theorem Literal.skip_of_text {l : Literal} {s : String} (told : l.text = .ok s) :
    l.skip = .ok () := by
  rcases bind_eq_ok.1 told with ⟨cs, joined, -⟩
  simp [Literal.skip, closed_of_joinPieces joined]

theorem careful_string : Careful readString := by
  intro o s told
  unfold readString at told
  split at told
  · exact Literal.skip_of_text told
  · cases told

theorem careful_boolean : Careful readBool := by
  intro o b told
  unfold readBool at told
  split at told
  · rfl
  · cases told

theorem careful_word : Careful readWord := by
  intro o w told
  unfold readWord at told
  split at told
  · rfl
  · cases told

/-! ## Lists and optional values -/

variable {α : Type} {read : Outline → Except Fault α}

theorem Items.skip_of_readAll (careful : Careful read) {items : Items} {xs : List α}
    (told : items.readAll read = .ok xs) : items.skip = .ok () := by
  fun_induction Items.readAll read items generalizing xs with
  | case1 => rfl
  | case2 => cases told
  | case3 head tail ih =>
      rcases bind_eq_ok.1 told with ⟨x, first, told⟩
      rcases bind_eq_ok.1 told with ⟨ys, later, -⟩
      exact Items.skip_item.2 ⟨careful _ _ first, ih later⟩

theorem careful_list (careful : Careful read) : Careful (readList read) := by
  intro o xs told
  unfold readList at told
  split at told
  · exact Items.skip_of_readAll careful told
  · cases told

theorem careful_optional (careful : Careful read) : Careful (readOptional read) := by
  intro o x told
  unfold readOptional at told
  split at told
  · rfl
  · exact careful.bind _ _ _ told

/-! ## Records -/

namespace Fields

/-- Every field has a careful reader. -/
def Careful : {σ ρ : Type} → Fields σ ρ → Prop
  | _, _, .nil => True
  | _, _, .cons field rest => Json.Careful field.read ∧ rest.Careful

variable {σ ρ : Type} {fields : Fields σ ρ}

theorem skip_of_put (careful : fields.Careful) {name : String} {o : Outline} {s s' : σ}
    (told : fields.put name o s = .ok s') : o.skip = .ok () := by
  induction fields with
  | nil =>
      rcases bind_eq_ok.1 told with ⟨_, passes, -⟩
      exact passes
  | cons field rest ih =>
      unfold put at told
      split at told
      · rcases bind_eq_ok.1 told with ⟨x, first, -⟩
        exact careful.1 _ _ first
      · rcases bind_eq_ok.1 told with ⟨later, more, -⟩
        exact ih careful.2 more

theorem skip_of_readMembers (careful : fields.Careful) {members : Members} {s s' : σ}
    (told : fields.readMembers members s = .ok s') : members.skip = .ok () := by
  fun_induction readMembers fields members s generalizing s' with
  | case1 => rfl
  | case2 | case3 => cases told
  | case4 name atEnd s =>
      rcases bind_eq_ok.1 told with ⟨k, -, fault⟩
      cases fault
  | case5 name value tail s ih =>
      rcases bind_eq_ok.1 told with ⟨k, named, told⟩
      split at told
      · cases told
      · rcases bind_eq_ok.1 told with ⟨grown, stored, later⟩
        exact Members.skip_member.2
          ⟨Literal.skip_of_text named, skip_of_put careful stored, ih grown later⟩

theorem skip_of_readItems (careful : fields.Careful) {expected : String} {index : Nat}
    {items left : Items} {r : ρ} (told : fields.readItems expected index items = .ok (r, left))
    (passes : left.skip = .ok ()) : items.skip = .ok () := by
  induction fields generalizing index items with
  | nil =>
      cases told
      exact passes
  | cons field rest ih =>
      cases items with
      | close => rfl
      | stop _ => cases told
      | item head tail =>
          rcases bind_eq_ok.1 told with ⟨x, first, told⟩
          rcases bind_eq_ok.1 told with ⟨⟨later, left'⟩, more, same⟩
          cases same
          exact Items.skip_item.2 ⟨careful.1 _ _ first, ih careful.2 more⟩

theorem careful_read (careful : fields.Careful) (title : String) :
    Json.Careful (fields.read title) := by
  intro o r told
  unfold Fields.read at told
  split at told
  · rcases bind_eq_ok.1 told with ⟨s, gathered, -⟩
    exact skip_of_readMembers careful gathered
  · rcases bind_eq_ok.1 told with ⟨⟨r', left⟩, gathered, told⟩
    rcases bind_eq_ok.1 told with ⟨_, closed, -⟩
    refine skip_of_readItems careful gathered ?_
    unfold Items.finish at closed
    split at closed
    · rfl
    all_goals cases closed
  · cases told

end Fields

/-! ## Texts -/

/-- What a careful reader is given is spelled by the text, from its first character to its last. -/
theorem Careful.spells (careful : Careful read) {text : String} {x : α}
    (decodes : decode read text = .ok x) :
    ∃ o, Spells text.toList o ∧ read o = .ok x := by
  unfold decode at decodes
  rcases scanned : scan text.toList with ⟨o, more⟩
  rw [scanned] at decodes
  rcases bind_eq_ok.1 decodes with ⟨y, told, alone⟩
  cases more with
  | true => cases alone
  | false =>
      cases alone
      exact ⟨o, spells_iff.2 ⟨scanned, careful o _ told⟩, told⟩

/-- A text is decoded as the outline that it spells. -/
theorem decode_of_spells {text : String} {o : Outline} (spells : Spells text.toList o) :
    decode read text = read o := by
  rw [decode, scan_of_spells spells]
  cases told : read o <;> simp [told, bind, Except.bind, pure, Except.pure]

end Json
end ApiCatalog
