import Mathlib.Data.List.TakeWhile
import ApiCatalog.Proofs.Json.Scanning

/-!
# What is scanned without a fault

An outline that passes the check of a skipped value was scanned from a text in which it is written.
That check passes for everything that is written, so it tells the well formed texts from the others.

- `Json.ValueIn`, `Json.ItemsIn`, `Json.MembersIn` : what was scanned is written in the text
- `Json.accepts`                                   : it is, with any fuel
- `Json.spells_iff`                                : whole texts
-/

namespace ApiCatalog
namespace Json

/-! ## White space -/

theorem exists_blank {s t : List Char} (skipped : skipSpace s = t) : ∃ a, Blank a ∧ s = a ++ t := by
  refine ⟨s.takeWhile isSpace, fun _ mem => List.mem_takeWhile_imp mem, ?_⟩
  rw [← skipped]
  exact List.takeWhile_append_dropWhile.symm

theorem Blank.append {a b : List Char} (first : Blank a) (second : Blank b) : Blank (a ++ b) := by
  intro c mem
  rcases List.mem_append.1 mem with mem | mem
  · exact first c mem
  · exact second c mem

theorem Items.Written.pad {head : Outline} {tail : Items} {a s : List Char} (blank : Blank a)
    (h : (Items.item head tail).Written s) : (Items.item head tail).Written (a ++ s) := by
  cases h with
  | last before value after =>
      rw [← List.append_assoc]
      exact .last (blank.append before) value after
  | more before value after rest =>
      rw [← List.append_assoc]
      exact .more (blank.append before) value after rest

theorem Members.Written.pad {l : Literal} {o : Outline} {tail : Members} {a s : List Char}
    (blank : Blank a) (h : (Members.member l o tail).Written s) :
    (Members.member l o tail).Written (a ++ s) := by
  cases h with
  | last before name colon gap value after =>
      rw [← List.append_assoc]
      exact .last (blank.append before) name colon gap value after
  | more before name colon gap value after rest =>
      rw [← List.append_assoc]
      exact .more (blank.append before) name colon gap value after rest

/-! ## Literals -/

theorem Literal.closed_of_skip {l : Literal} (passes : l.skip = .ok ()) : l.ending = .closed := by
  unfold Literal.skip at passes
  split at passes
  · assumption
  all_goals cases passes

/-- Before the quote that ends it, the literal is written in the text. -/
def QuotedIn (s : List Char) (scanned : Literal × List Char) : Prop :=
  ∃ t, PiecesWritten scanned.1.pieces t ∧ s = t ++ '"' :: scanned.2

theorem QuotedIn.cons {p : Piece} {g s : List Char} {scanned : Literal × List Char}
    (first : p.Written g) (later : QuotedIn s scanned) :
    QuotedIn (g ++ s) (Literal.cons p scanned) := by
  rcases later with ⟨t, pieces, rfl⟩
  exact ⟨g ++ t, .cons first pieces, (List.append_assoc g t _).symm⟩

theorem quotedIn_of_closed {s : List Char} (closed : (scanLiteral s).1.ending = .closed) :
    QuotedIn s (scanLiteral s) := by
  fun_induction scanLiteral s with
  | case2 rest => exact ⟨[], .nil, rfl⟩
  | case3 a b c d rest n digits ih => exact (ih closed).cons (.codeUnit digits)
  | case6 c rest _ _ e known ih => exact (ih closed).cons (.escaped known)
  | case10 c rest quote _ _ more none visible ih =>
      have backslash : c ≠ '\\' := by
        intro same
        cases rest with
        | nil => exact none same rfl
        | cons d later => exact more d later same rfl
      exact (ih closed).cons (.plain quote backslash visible)
  | case5 rest _ =>
      -- too few octets for an escape
      split at closed <;> cases closed
  | case1 | case4 | case7 | case8 | case9 => cases closed

/-- Unless a fault stands in the way, the literal is written in front of what is left. -/
def LiteralIn (s : List Char) (scanned : Literal × List Char) : Prop :=
  scanned.1.skip = .ok () → ∃ t, scanned.1.Written t ∧ s = t ++ scanned.2

theorem literalIn_scanLiteral (s : List Char) : LiteralIn ('"' :: s) (scanLiteral s) := by
  intro passes
  have closed := Literal.closed_of_skip passes
  rcases quotedIn_of_closed closed with ⟨t, pieces, text⟩
  rcases scanned : scanLiteral s with ⟨⟨ps, ending⟩, rest⟩
  rw [scanned] at closed pieces text
  cases closed
  exact ⟨_, .quoted pieces, by simp [text]⟩

/-! ## Values

As for literals, whatever the value is that was scanned.
-/

def ValueIn (s : List Char) (scanned : Outline × List Char) : Prop :=
  scanned.1.skip = .ok () → ∃ t, scanned.1.Written t ∧ s = t ++ scanned.2

theorem ValueIn.of_fault {s : List Char} {scanned : Outline × List Char} {fault : Fault}
    (fails : scanned.1.skip = .error fault) : ValueIn s scanned := by
  intro passes
  cases fails.symm.trans passes

theorem LiteralIn.string {s : List Char} {scanned : Literal × List Char}
    (h : LiteralIn s scanned) : ValueIn s (.string scanned.1, scanned.2) := by
  intro passes
  rcases h passes with ⟨t, written, text⟩
  exact ⟨t, .string written, text⟩

theorem ValueIn.exists_blank {s : List Char} {scanned : Outline × List Char}
    (h : ValueIn (skipSpace s) scanned) (passes : scanned.1.skip = .ok ()) :
    ∃ a t, Blank a ∧ scanned.1.Written t ∧ s = a ++ (t ++ scanned.2) := by
  rcases h passes with ⟨t, written, text⟩
  rcases Json.exists_blank text with ⟨a, blank, same⟩
  exact ⟨a, t, blank, written, same⟩

/-! ## Numerals -/

theorem digits_of_leading {s : List Char} (some_digit : (leadingDigits s).isEmpty = false) :
    ∃ t, DigitsWritten (leadingDigits s) t ∧ s = t ++ afterDigits s := by
  refine ⟨s.takeWhile Char.isDigit, ⟨?_, ?_, rfl⟩, List.takeWhile_append_dropWhile.symm⟩
  · intro none
    simp [leadingDigits, none] at some_digit
  · exact fun _ mem => List.mem_takeWhile_imp mem

theorem whole_of_scanWhole {ds : List Nat} {s rest : List Char}
    (h : scanWhole s = .ok (ds, rest)) : ∃ t, WholeWritten ds t ∧ s = t ++ rest := by
  unfold scanWhole at h
  split at h
  · cases h
  · cases h
  · next some_digit single =>
      cases h
      have found : (leadingDigits s).isEmpty = false := by simpa using some_digit
      rcases digits_of_leading found with ⟨t, digits, text⟩
      refine ⟨t, ⟨digits, fun zero => ?_⟩, text⟩
      -- after a leading zero there is no other digit
      rcases t with _ | ⟨c, _ | ⟨d, later⟩⟩
      · cases zero
      · cases zero
        rfl
      · cases zero
        exact absurd digits.values.symm (single _ _)

theorem decimals_of_scanDecimals {ds : Option (List Nat)} {s rest : List Char}
    (h : scanDecimals s = .ok (ds, rest)) : ∃ t, DecimalsWritten ds t ∧ s = t ++ rest := by
  unfold scanDecimals at h
  split at h
  · split at h
    · cases h
    · next some_digit =>
        cases h
        rcases digits_of_leading (by simpa using some_digit) with ⟨t, digits, text⟩
        exact ⟨_, .present digits, congrArg _ text⟩
  · cases h
    exact ⟨[], .absent, rfl⟩

/-- The digits of an exponent after its sign. -/
theorem exponent_of_digits {mark : Char} (marked : mark = 'e' ∨ mark = 'E') {minus : Bool}
    (sign : List Char) (signed : (minus, sign) ∈ [(false, []), (false, ['+']), (true, ['-'])])
    {e : Option Exponent} {s rest : List Char}
    (h : (if (leadingDigits s).isEmpty then Except.error s.isEmpty
      else Except.ok (some ⟨minus, leadingDigits s⟩, afterDigits s)) = .ok (e, rest)) :
    ∃ t, ExponentWritten e t ∧ mark :: (sign ++ s) = t ++ rest := by
  split at h
  · cases h
  · next some_digit =>
      cases h
      rcases digits_of_leading (by simpa using some_digit) with ⟨t, digits, text⟩
      refine ⟨_, .present marked signed digits, ?_⟩
      rw [List.cons_append, List.append_assoc, ← text]

theorem exponent_of_scanExponent {e : Option Exponent} {s rest : List Char}
    (h : scanExponent s = .ok (e, rest)) : ∃ t, ExponentWritten e t ∧ s = t ++ rest := by
  unfold scanExponent at h
  split at h
  · next c later =>
      dsimp only at h
      split at h
      · next marks =>
          have marked : c = 'e' ∨ c = 'E' := by simpa using marks
          split at h
          · exact exponent_of_digits marked ['+'] (by simp) h
          · exact exponent_of_digits marked ['-'] (by simp) h
          · exact exponent_of_digits marked [] (by simp) h
      · cases h
        exact ⟨[], .absent, rfl⟩
  · cases h
    exact ⟨[], .absent, rfl⟩

theorem numeral_of_scanNumeral {n : Numeral} {minus : Bool} {sign s rest : List Char}
    (signed : (minus, sign) ∈ [(false, []), (true, ['-'])])
    (h : scanNumeral minus s = .ok (n, rest)) : ∃ t, n.Written t ∧ sign ++ s = t ++ rest := by
  unfold scanNumeral at h
  rcases first : scanWhole s with _ | ⟨ds, s₁⟩
  · simp [first, bind, Except.bind] at h
  rcases second : scanDecimals s₁ with _ | ⟨decimals, s₂⟩
  · simp [first, second, bind, Except.bind] at h
  rcases third : scanExponent s₂ with _ | ⟨exponent, s₃⟩
  · simp [first, second, third, bind, Except.bind] at h
  simp only [first, second, third, bind, Except.bind, pure, Except.pure] at h
  cases h
  rcases whole_of_scanWhole first with ⟨t, whole, rfl⟩
  rcases decimals_of_scanDecimals second with ⟨u, point, rfl⟩
  rcases exponent_of_scanExponent third with ⟨v, power, rfl⟩
  exact ⟨_, .parts signed whole point power, by simp only [List.append_assoc]⟩

theorem valueIn_numeral {minus : Bool} (sign : List Char)
    (signed : (minus, sign) ∈ [(false, []), (true, ['-'])]) (s : List Char) :
    ValueIn (sign ++ s) (numeralOutline minus s) := by
  unfold numeralOutline
  split
  · next n rest scanned =>
      rcases numeral_of_scanNumeral signed scanned with ⟨t, written, text⟩
      exact fun _ => ⟨t, .numeral written, text⟩
  · exact .of_fault rfl

/-! ## Words -/

theorem word_of_skip {word : Outline} {letters s : List Char}
    (passes : (scanWord word letters s).1.skip = .ok ()) :
    (scanWord word letters s).1 = word ∧ s = letters ++ (scanWord word letters s).2 := by
  fun_induction scanWord word letters s with
  | case1 s => exact ⟨rfl, rfl⟩
  | case3 cs c s ih => exact ⟨(ih passes).1, congrArg (c :: ·) (ih passes).2⟩
  | case2 | case4 => cases passes

theorem valueIn_word {word : Outline} {c : Char} {letters : List Char}
    (written : word.Written (c :: letters)) (s : List Char) :
    ValueIn (c :: s) (scanWord word letters s) := by
  intro passes
  rcases word_of_skip passes with ⟨same, text⟩
  exact ⟨c :: letters, same.symm ▸ written, congrArg (c :: ·) text⟩

/-! ## The tree -/

theorem Items.skip_item {head : Outline} {tail : Items} :
    (Items.item head tail).skip = .ok () ↔ head.skip = .ok () ∧ tail.skip = .ok () := by
  rw [Items.skip]
  cases head.skip <;> simp [bind, Except.bind]

theorem Members.skip_member {l : Literal} {o : Outline} {tail : Members} :
    (Members.member l o tail).skip = .ok () ↔
      l.skip = .ok () ∧ o.skip = .ok () ∧ tail.skip = .ok () := by
  rw [Members.skip]
  cases l.skip <;> cases o.skip <;> simp [bind, Except.bind]

theorem Members.skip_noColon (l : Literal) (atEnd : Bool) : (noColon l atEnd).skip ≠ .ok () := by
  rw [Members.skip]
  cases l.skip <;> exact nofun

/-- The elements of an array that is not empty, after its bracket. -/
def ItemsIn (s : List Char) (scanned : Items × List Char) : Prop :=
  scanned.1.skip = .ok () → ∃ head tail t, scanned.1 = .item head tail ∧
    (Items.item head tail).Written t ∧ s = t ++ scanned.2

/-- The members of an object that is not empty, after its brace. -/
def MembersIn (s : List Char) (scanned : Members × List Char) : Prop :=
  scanned.1.skip = .ok () → ∃ l o tail t, scanned.1 = .member l o tail ∧
    (Members.member l o tail).Written t ∧ s = t ++ scanned.2

structure Accepts (fuel : Nat) : Prop where
  value (s : List Char) : ValueIn (skipSpace s) (scanValue fuel s)
  items (s : List Char) : ItemsIn s (scanItems fuel s)
  members (s : List Char) : MembersIn s (scanMembers fuel s)

section Step

variable {n : Nat} {s t u rest next : List Char} {o : Outline} {l : Literal}

theorem ItemsIn.stop (o : Outline) (w : Stop) (rest : List Char) :
    ItemsIn s (.item o (.stop w), rest) := by
  intro passes
  cases (Items.skip_item.1 passes).2

theorem ItemsIn.last (value : ValueIn (skipSpace s) (o, u)) (closed : skipSpace u = ']' :: rest) :
    ItemsIn s (.item o .close, rest) := by
  intro passes
  rcases value.exists_blank (Items.skip_item.1 passes).1 with ⟨a, t, before, written, rfl⟩
  rcases exists_blank closed with ⟨b, after, rfl⟩
  exact ⟨_, _, _, rfl, .last before written after, by simp⟩

theorem ItemsIn.more {scanned : Items × List Char} (value : ValueIn (skipSpace s) (o, u))
    (comma : skipSpace u = ',' :: next) (later : ItemsIn (skipSpace next) scanned) :
    ItemsIn s (.item o scanned.1, scanned.2) := by
  intro passes
  have both := Items.skip_item.1 passes
  rcases value.exists_blank both.1 with ⟨a, t, before, written, rfl⟩
  rcases exists_blank comma with ⟨b, after, rfl⟩
  rcases later both.2 with ⟨head, tail, t', items, others, text⟩
  rcases exists_blank text with ⟨c, gap, rfl⟩
  refine ⟨o, .item head tail, _, by rw [items], .more before written after (others.pad gap), ?_⟩
  simp

/-- An array that is not empty, with its bracket. -/
theorem ItemsIn.array {scanned : Items × List Char} (h : ItemsIn (skipSpace rest) scanned) :
    ValueIn ('[' :: rest) (.array scanned.1, scanned.2) := by
  intro passes
  rcases h passes with ⟨head, tail, t, items, written, found⟩
  rcases exists_blank found with ⟨a, before, text⟩
  have inside := written.pad before
  rw [← items] at inside
  exact ⟨_, .array inside, by simp [← text]⟩

theorem valueIn_emptyArray (closed : skipSpace s = ']' :: rest) :
    ValueIn ('[' :: s) (.array .close, rest) := by
  rcases exists_blank closed with ⟨a, before, rfl⟩
  exact fun _ => ⟨_, .array (.close before), by simp⟩

theorem Accepts.items_succ (h : Accepts n) (s : List Char) : ItemsIn s (scanItems (n + 1) s) := by
  have value := h.value s
  rw [scanItems]
  split
  next o u first =>
    rw [first] at value
    split
    · exact .stop _ _ _
    · next closed => exact .last value closed
    · next next comma =>
        split
        · exact .stop _ _ _
        · exact .stop _ _ _
        · exact .more value comma (h.items _)
    · exact .stop _ _ _

theorem MembersIn.stop (l : Literal) (o : Outline) (w : Stop) (rest : List Char) :
    MembersIn s (.member l o (.stop w), rest) := by
  intro passes
  cases (Members.skip_member.1 passes).2.2

theorem MembersIn.noColon (l : Literal) (atEnd : Bool) (rest : List Char) :
    MembersIn s (.noColon l atEnd, rest) :=
  fun passes => absurd passes (Members.skip_noColon l atEnd)

theorem MembersIn.last (name : LiteralIn s (l, u)) (colon : skipSpace u = ':' :: t)
    (value : ValueIn (skipSpace t) (o, next)) (closed : skipSpace next = '}' :: rest) :
    MembersIn s (.member l o .close, rest) := by
  intro passes
  have both := Members.skip_member.1 passes
  rcases name both.1 with ⟨m, quoted, rfl⟩
  rcases exists_blank colon with ⟨b, gap, rfl⟩
  rcases value.exists_blank both.2.1 with ⟨c, t, before, written, rfl⟩
  rcases exists_blank closed with ⟨d, after, rfl⟩
  exact ⟨_, _, _, _, rfl, .last blank_nil quoted gap before written after, by simp⟩

theorem MembersIn.more {scanned : Members × List Char} (name : LiteralIn s (l, u))
    (colon : skipSpace u = ':' :: t) (value : ValueIn (skipSpace t) (o, next))
    (comma : skipSpace next = ',' :: rest) (later : MembersIn (skipSpace rest) scanned) :
    MembersIn s (.member l o scanned.1, scanned.2) := by
  intro passes
  have both := Members.skip_member.1 passes
  rcases name both.1 with ⟨m, quoted, rfl⟩
  rcases exists_blank colon with ⟨b, gap, rfl⟩
  rcases value.exists_blank both.2.1 with ⟨c, t, before, written, rfl⟩
  rcases exists_blank comma with ⟨d, after, rfl⟩
  rcases later both.2.2 with ⟨l', o', tail, t', members, others, text⟩
  rcases exists_blank text with ⟨e, space, rfl⟩
  refine ⟨l, o, .member l' o' tail, _, by rw [members],
    .more blank_nil quoted gap before written after (others.pad space), ?_⟩
  simp

/-- An object that is not empty, with its brace. -/
theorem MembersIn.object {scanned : Members × List Char} (h : MembersIn (skipSpace rest) scanned) :
    ValueIn ('{' :: rest) (.object scanned.1, scanned.2) := by
  intro passes
  rcases h passes with ⟨l, o, tail, t, members, written, found⟩
  rcases exists_blank found with ⟨a, before, text⟩
  have inside := written.pad before
  rw [← members] at inside
  exact ⟨_, .object inside, by simp [← text]⟩

theorem valueIn_emptyObject (closed : skipSpace s = '}' :: rest) :
    ValueIn ('{' :: s) (.object .close, rest) := by
  rcases exists_blank closed with ⟨a, before, rfl⟩
  exact fun _ => ⟨_, .object (.close before), by simp⟩

theorem Accepts.members_succ (h : Accepts n) (s : List Char) :
    MembersIn s (scanMembers (n + 1) s) := by
  unfold scanMembers
  split
  · next none => cases none
  · next m s same =>
      cases same
      have name := literalIn_scanLiteral s
      split
      next l u scanned =>
        rw [scanned] at name
        split
        · exact .noColon _ _ _
        · next t colon =>
            have value := h.value t
            split
            next o v first =>
              rw [first] at value
              split
              · exact .stop _ _ _ _
              · next closed => exact .last name colon value closed
              · next rest comma =>
                  split
                  · exact .stop _ _ _ _
                  · exact .stop _ _ _ _
                  · exact .more name colon value comma (h.members _)
              · exact .stop _ _ _ _
        · exact .noColon _ _ _
  · intro passes
    cases passes

theorem Accepts.value_succ (h : Accepts n) (s : List Char) :
    ValueIn (skipSpace s) (scanValue (n + 1) s) := by
  rw [scanValue]
  -- only the text without the white space in front is looked at
  generalize skipSpace s = u
  split
  · exact .of_fault rfl
  · exact valueIn_word .null _
  · exact valueIn_word .true _
  · exact valueIn_word .false _
  · exact (literalIn_scanLiteral _).string
  · exact valueIn_numeral ['-'] (by simp) _
  · split
    · exact .of_fault rfl
    · next closed => exact valueIn_emptyArray closed
    · exact (h.items _).array
  · split
    · exact .of_fault rfl
    · next closed => exact valueIn_emptyObject closed
    · exact (h.members _).object
  · split
    · exact valueIn_numeral [] (by simp) _
    · exact .of_fault rfl

end Step

theorem accepts (fuel : Nat) : Accepts fuel := by
  induction fuel with
  | zero =>
      refine ⟨fun _ passes => ?_, fun _ passes => ?_, fun _ passes => ?_⟩
      all_goals cases passes
  | succ n ih => exact ⟨ih.value_succ, ih.items_succ, ih.members_succ⟩

/-! ## What is written passes -/

theorem Literal.Written.skip {l : Literal} {s : List Char} (h : l.Written s) : l.skip = .ok () := by
  cases h
  rfl

mutual

theorem Outline.Written.skip : ∀ {o : Outline} {s : List Char}, o.Written s → o.skip = .ok ()
  | _, _, .null | _, _, .true | _, _, .false | _, _, .numeral _ => rfl
  | _, _, .string written => written.skip
  | _, _, .array inside => inside.skip
  | _, _, .object inside => inside.skip

theorem Items.Written.skip :
    ∀ {items : Items} {s : List Char}, items.Written s → items.skip = .ok ()
  | _, _, .close _ => rfl
  | _, _, .last _ value _ => Items.skip_item.2 ⟨value.skip, rfl⟩
  | _, _, .more _ value _ rest => Items.skip_item.2 ⟨value.skip, rest.skip⟩

theorem Members.Written.skip :
    ∀ {members : Members} {s : List Char}, members.Written s → members.skip = .ok ()
  | _, _, .close _ => rfl
  | _, _, .last _ name _ _ value _ => Members.skip_member.2 ⟨name.skip, value.skip, rfl⟩
  | _, _, .more _ name _ _ value _ rest => Members.skip_member.2 ⟨name.skip, value.skip, rest.skip⟩

end

/-! ## Whole texts -/

/-- A text spells what is scanned from it, if that passes. -/
theorem spells_iff {text : List Char} {o : Outline} :
    Spells text o ↔ scan text = (o, false) ∧ o.skip = .ok () := by
  constructor
  · intro spells
    refine ⟨scan_of_spells spells, ?_⟩
    rcases spells with ⟨a, s, b, -, written, -⟩
    exact written.skip
  · rintro ⟨scanned, passes⟩
    unfold scan at scanned
    simp only [Prod.mk.injEq, Bool.not_eq_false'] at scanned
    rcases scanned with ⟨rfl, rest⟩
    rcases ((accepts _).value text).exists_blank passes with ⟨a, t, before, written, same⟩
    rcases exists_blank (List.isEmpty_iff.1 rest) with ⟨b, after, left⟩
    rw [List.append_nil] at left
    exact ⟨a, t, b, before, written, after, left ▸ same⟩

/-- A text that begins with a brace spells nothing but an object. -/
theorem Spells.object {text : List Char} {o : Outline} (spells : Spells text o)
    (brace : (skipSpace text).head? = some '{') : ∃ members, o = .object members := by
  rcases List.head?_eq_some_iff.1 brace with ⟨rest, visible⟩
  have outline : o = (scanValue (2 * text.length + 2) text).1 :=
    (congrArg Prod.fst (scan_of_spells spells)).symm
  rw [outline, scanValue]
  split
  case h_8 => split <;> exact ⟨_, rfl⟩
  case h_9 other same =>
    cases visible.symm.trans same
    exact absurd rfl other
  -- the other cases are for texts that begin otherwise
  all_goals
    next same => cases visible.symm.trans same

end Json
end ApiCatalog
