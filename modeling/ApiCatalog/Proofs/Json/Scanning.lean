import ApiCatalog.Proofs.Json.Grammar

/-!
# Scanning what is written

However an outline is written, it is scanned from its text and nothing more is, as long as what
follows cannot be taken for a part of a number.

- `Json.scanLiteral_pieces`, `Json.scanNumeral_written` : the leaves
- `Json.reaches`                                        : values, elements and members
- `Json.scan_of_spells`                                 : whole texts
-/

namespace ApiCatalog
namespace Json

/-! ## White space -/

theorem skipSpace_cons {c : Char} (visible : isSpace c = false) (s : List Char) :
    skipSpace (c :: s) = c :: s := by
  simp [skipSpace, visible]

theorem Blank.skipSpace_append {a : List Char} (blank : Blank a) (s : List Char) :
    skipSpace (a ++ s) = skipSpace s :=
  List.dropWhile_append_of_pos blank

/-! ## Literals -/

theorem scanLiteral_plain {c : Char} (quote : c ≠ '"') (backslash : c ≠ '\\')
    (visible : ¬c.toNat < 0x20) (t : List Char) :
    scanLiteral (c :: t) = Literal.cons (.plain c) (scanLiteral t) := by
  rw [scanLiteral.eq_def]
  split
  case h_7 same =>
    cases same
    exact if_neg visible
  case h_2 same => exact absurd (List.cons.inj same).1 quote
  case h_1 same => cases same
  -- every other case is for a text that begins with a backslash
  all_goals
    next same => exact absurd (List.cons.inj same).1 backslash

theorem scanLiteral_piece {p : Piece} {s : List Char} (h : p.Written s) (t : List Char) :
    scanLiteral (s ++ t) = Literal.cons p (scanLiteral t) := by
  cases h with
  | plain quote backslash visible => exact scanLiteral_plain quote backslash visible t
  | escaped known =>
      unfold escaped? at known
      split at known
      case h_9 => cases known
      all_goals
        cases known
        rfl
  | codeUnit digits =>
      simp only [List.cons_append, List.nil_append]
      rw [scanLiteral, digits]

theorem scanLiteral_pieces {ps : List Piece} {s : List Char} (h : PiecesWritten ps s)
    (t : List Char) : scanLiteral (s ++ '"' :: t) = (⟨ps, .closed⟩, t) := by
  induction h with
  | nil => simp [scanLiteral]
  | cons first _ ih => simp [scanLiteral_piece first, ih, Literal.cons]

/-! ## What follows a value -/

/-- What may follow a value. -/
def Ends (rest : List Char) : Prop :=
  ∀ c later, rest = c :: later → isSpace c = true ∨ c = ',' ∨ c = ']' ∨ c = '}'

theorem ends_nil : Ends [] :=
  fun _ _ same => nomatch same

theorem ends_cons {c : Char} (closes : isSpace c = true ∨ c = ',' ∨ c = ']' ∨ c = '}')
    (later : List Char) : Ends (c :: later) := by
  intro d rest same
  cases same
  exact closes

theorem Blank.ends {a rest : List Char} (blank : Blank a) (ends : Ends rest) :
    Ends (a ++ rest) := by
  cases a with
  | nil => exact ends
  | cons c later => exact ends_cons (.inl (blank c List.mem_cons_self)) _

/-! ## Numerals -/

/-- No digit comes first. -/
def Undigited (s : List Char) : Prop :=
  ∀ c later, s = c :: later → c.isDigit = false

theorem isSpace_of_isDigit {c : Char} (digit : c.isDigit = true) : isSpace c = false := by
  simp only [isSpace, Bool.or_eq_false_iff, beq_eq_false_iff_ne]
  refine ⟨⟨⟨?_, ?_⟩, ?_⟩, ?_⟩
  all_goals
    rintro rfl
    revert digit
    decide

theorem isDigit_of_isSpace {c : Char} (space : isSpace c = true) : c.isDigit = false := by
  cases digit : c.isDigit with
  | false => rfl
  | true => simp [isSpace_of_isDigit digit] at space

theorem Ends.undigited {rest : List Char} (ends : Ends rest) : Undigited rest := by
  intro c later same
  rcases ends c later same with space | rfl | rfl | rfl
  · exact isDigit_of_isSpace space
  all_goals rfl

theorem DigitsWritten.append {ds : List Nat} {s rest : List Char} (h : DigitsWritten ds s)
    (stops : Undigited rest) :
    leadingDigits (s ++ rest) = ds ∧ afterDigits (s ++ rest) = rest := by
  have none : rest.takeWhile Char.isDigit = [] ∧ rest.dropWhile Char.isDigit = rest := by
    cases rest with
    | nil => simp
    | cons c later => simp [stops c later rfl]
  unfold leadingDigits afterDigits
  rw [List.takeWhile_append_of_pos h.digits, List.dropWhile_append_of_pos h.digits, none.1, none.2,
    List.append_nil, h.values]
  exact ⟨rfl, rfl⟩

theorem DigitsWritten.isEmpty {ds : List Nat} {s : List Char} (h : DigitsWritten ds s) :
    ds.isEmpty = false := by
  rw [← h.values]
  simpa using h.some_digit

theorem eq_zero_of_digitValue {c : Char} (digit : c.isDigit = true) (zero : digitValue c = 0) :
    c = '0' := by
  apply Char.toNat_inj.1
  simp [Char.isDigit, UInt32.le_iff_toNat_le, digitValue] at *
  omega

theorem scanWhole_written {ds : List Nat} {s rest : List Char} (h : WholeWritten ds s)
    (stops : Undigited rest) : scanWhole (s ++ rest) = .ok (ds, rest) := by
  have ⟨leading, after⟩ := h.append stops
  have some_digit := h.isEmpty
  unfold scanWhole
  rw [leading, after]
  split
  · cases some_digit
  · next d more =>
      -- a zero in front of another digit
      have values := h.values
      cases s with
      | nil => cases values
      | cons c later =>
          rw [List.map_cons, List.cons.injEq] at values
          have zero : c = '0' :=
            eq_zero_of_digitValue (h.digits c List.mem_cons_self) values.1
          have alone := h.alone (by rw [zero]; rfl)
          rw [List.cons.injEq] at alone
          rw [alone.2] at values
          cases values.2
  · rfl

theorem scanDecimals_written {ds : Option (List Nat)} {s rest : List Char}
    (h : DecimalsWritten ds s) (stops : Undigited rest) (point : rest.head? ≠ some '.') :
    scanDecimals (s ++ rest) = .ok (ds, rest) := by
  cases h with
  | absent =>
      unfold scanDecimals
      split
      · next same => exact absurd (congrArg List.head? same) point
      · rfl
  | present written =>
      have ⟨leading, after⟩ := written.append stops
      simp [scanDecimals, leading, after, written.isEmpty]

/-- A sign is no digit, so digits that follow the mark are not taken for one. -/
theorem scanExponent_unsigned {m : Char} {ds : List Nat} {s rest : List Char}
    (marked : (m == 'e' || m == 'E') = true) (h : DigitsWritten ds s) (stops : Undigited rest) :
    scanExponent (m :: (s ++ rest)) = .ok (some ⟨false, ds⟩, rest) := by
  have ⟨leading, after⟩ := h.append stops
  have some_digit := h.isEmpty
  cases s with
  | nil => exact absurd rfl h.some_digit
  | cons c later =>
      have digit : c.isDigit = true := h.digits c List.mem_cons_self
      simp only [scanExponent, marked, if_true]
      split
      · next same =>
          cases same
          cases digit
      · next same =>
          cases same
          cases digit
      · rw [leading, after, some_digit]
        rfl

theorem scanExponent_written {e : Option Exponent} {s rest : List Char}
    (h : ExponentWritten e s) (stops : Undigited rest)
    (mark : rest.head? ≠ some 'e' ∧ rest.head? ≠ some 'E') :
    scanExponent (s ++ rest) = .ok (e, rest) := by
  cases h with
  | absent =>
      cases rest with
      | nil => rfl
      | cons c later =>
          have other : (c == 'e' || c == 'E') = false := by simpa using mark
          simp [scanExponent, other]
  | @present m minus sign ds s marked signed written =>
      have ⟨leading, after⟩ := written.append stops
      have marks : (m == 'e' || m == 'E') = true := by simpa using marked
      simp only [List.mem_cons, List.not_mem_nil, or_false, Prod.mk.injEq] at signed
      rcases signed with ⟨rfl, rfl⟩ | ⟨rfl, rfl⟩ | ⟨rfl, rfl⟩
      · exact scanExponent_unsigned marks written stops
      · simp [scanExponent, marks, leading, after, written.isEmpty]
      · simp [scanExponent, marks, leading, after, written.isEmpty]

/-- Nothing that ends a value goes on with a numeral. -/
theorem Ends.head?_ne {rest : List Char} (ends : Ends rest) :
    rest.head? ≠ some '.' ∧ rest.head? ≠ some 'e' ∧ rest.head? ≠ some 'E' := by
  cases rest with
  | nil => simp
  | cons c later =>
      rcases ends c later rfl with space | rfl | rfl | rfl
      · refine ⟨?_, ?_, ?_⟩
        all_goals
          rintro same
          cases same
          cases space
      all_goals simp

theorem ExponentWritten.head? {e : Option Exponent} {s rest : List Char}
    (h : ExponentWritten e s) (ends : Ends rest) :
    Undigited (s ++ rest) ∧ (s ++ rest).head? ≠ some '.' := by
  cases h with
  | absent => exact ⟨ends.undigited, ends.head?_ne.1⟩
  | present marked signed written =>
      refine ⟨fun c later same => ?_, ?_⟩
      · cases same
        rcases marked with rfl | rfl <;> rfl
      · rcases marked with rfl | rfl <;> simp

theorem DecimalsWritten.undigited {ds : Option (List Nat)} {s rest : List Char}
    (h : DecimalsWritten ds s) (stops : Undigited rest) : Undigited (s ++ rest) := by
  cases h with
  | absent => exact stops
  | present written =>
      intro c later same
      cases same
      rfl

/-- A numeral is scanned from its digits after the sign. -/
theorem scanNumeral_written {ds : List Nat} {decimals : Option (List Nat)}
    {exponent : Option Exponent} {s t u rest : List Char} (whole : WholeWritten ds s)
    (point : DecimalsWritten decimals t) (power : ExponentWritten exponent u) (ends : Ends rest)
    (minus : Bool) :
    scanNumeral minus (s ++ (t ++ u) ++ rest) = .ok (⟨minus, ds, decimals, exponent⟩, rest) := by
  have ⟨bare, unpointed⟩ := power.head? ends
  have first := scanWhole_written whole (point.undigited bare)
  have second := scanDecimals_written point bare unpointed
  have third := scanExponent_written power ends.undigited ends.head?_ne.2
  simp [scanNumeral, first, second, third, bind, Except.bind, pure, Except.pure]

/-! ## Values and their beginnings -/

/-- A text that begins a value, neither white space nor the end of a list. -/
def Opens (s : List Char) : Prop :=
  ∃ c t, s = c :: t ∧ isSpace c = false ∧ c ≠ ']'

theorem Opens.append {s : List Char} (h : Opens s) (t : List Char) : Opens (s ++ t) := by
  rcases h with ⟨c, later, rfl, visible, other⟩
  exact ⟨c, later ++ t, rfl, visible, other⟩

theorem Opens.skipSpace {s : List Char} (h : Opens s) : skipSpace s = s := by
  rcases h with ⟨c, later, rfl, visible, -⟩
  simp [Json.skipSpace, visible]

/-- A value that no other character begins is a numeral. -/
theorem scanValue_other {s rest : List Char} {c : Char} (skipped : skipSpace s = c :: rest)
    (other : c ∉ ['n', 't', 'f', '"', '-', '[', '{']) (fuel : Nat) :
    scanValue (fuel + 1) s =
      if c.isDigit then numeralOutline false (c :: rest) else (.foreign, c :: rest) := by
  rw [scanValue, skipped]
  split
  case h_1 same => cases same
  case h_9 same =>
    cases same
    rfl
  -- the other cases are for the characters that `c` is not
  all_goals
    next same =>
      cases same
      exact absurd (by decide) other

theorem not_mem_of_isDigit {c : Char} (digit : c.isDigit = true) :
    c ∉ ['n', 't', 'f', '"', '-', '[', '{', ']'] := by
  intro mem
  simp only [List.mem_cons, List.not_mem_nil, or_false] at mem
  rcases mem with rfl | rfl | rfl | rfl | rfl | rfl | rfl | rfl <;> cases digit

/-- The first digit of a numeral without a sign. -/
theorem WholeWritten.eq_cons {ds : List Nat} {s : List Char} (h : WholeWritten ds s) :
    ∃ c later, s = c :: later ∧ c.isDigit = true := by
  cases s with
  | nil => exact absurd rfl h.some_digit
  | cons c later => exact ⟨c, later, rfl, h.digits c List.mem_cons_self⟩

theorem Outline.Written.opens {o : Outline} {s : List Char} (h : o.Written s) : Opens s := by
  cases h with
  | null => exact ⟨_, _, rfl, rfl, by decide⟩
  | true => exact ⟨_, _, rfl, rfl, by decide⟩
  | false => exact ⟨_, _, rfl, rfl, by decide⟩
  | array _ => exact ⟨_, _, rfl, rfl, by decide⟩
  | object _ => exact ⟨_, _, rfl, rfl, by decide⟩
  | string written =>
      cases written
      exact ⟨_, _, rfl, rfl, by decide⟩
  | numeral written =>
      rcases written with ⟨signed, whole, point, power⟩
      simp only [List.mem_cons, List.not_mem_nil, or_false, Prod.mk.injEq] at signed
      rcases signed with ⟨-, rfl⟩ | ⟨-, rfl⟩
      · rcases whole.eq_cons with ⟨c, later, rfl, digit⟩
        refine ⟨c, _, rfl, isSpace_of_isDigit digit, fun same => ?_⟩
        exact not_mem_of_isDigit digit (by simp [same])
      · exact ⟨_, _, rfl, rfl, by decide⟩

theorem scanValue_numeral {n : Numeral} {s rest : List Char} (h : n.Written s) (ends : Ends rest)
    (fuel : Nat) : scanValue (fuel + 1) (s ++ rest) = (.numeral n, rest) := by
  rcases h with @⟨minus, sign, ds, decimals, exponent, s, t, u, signed, whole, point, power⟩
  have scanned := scanNumeral_written whole point power ends minus
  simp only [List.mem_cons, List.not_mem_nil, or_false, Prod.mk.injEq] at signed
  rcases signed with ⟨rfl, rfl⟩ | ⟨rfl, rfl⟩
  · rcases whole.eq_cons with ⟨c, later, rfl, digit⟩
    have other : c ∉ ['n', 't', 'f', '"', '-', '[', '{'] := fun mem =>
      not_mem_of_isDigit digit (List.mem_append_left [']'] mem)
    have first := skipSpace_cons (isSpace_of_isDigit digit) (later ++ (t ++ u) ++ rest)
    simp only [List.nil_append, List.cons_append] at scanned first ⊢
    rw [scanValue_other first other, if_pos digit, numeralOutline, scanned]
  · have first := skipSpace_cons (c := '-') rfl (s ++ (t ++ u) ++ rest)
    simp only [List.cons_append, List.nil_append]
    rw [scanValue, first]
    simp only [numeralOutline, scanned]

/-! ## The tree

A value takes a unit of fuel and a list another one for each of its parts, so twice as many units as
there are characters are enough.
-/

/-- With this much fuel whatever is written is scanned, as far as the fuel goes. -/
structure Reaches (fuel : Nat) : Prop where
  value {o : Outline} {s rest : List Char} (written : o.Written s) (enough : 2 * s.length ≤ fuel)
    (ends : Ends rest) : scanValue fuel (s ++ rest) = (o, rest)
  items {head : Outline} {tail : Items} {s : List Char} (written : (Items.item head tail).Written s)
    (enough : 2 * s.length ≤ fuel) (rest : List Char) :
    scanItems fuel (skipSpace (s ++ rest)) = (.item head tail, rest)
  members {l : Literal} {o : Outline} {tail : Members} {s : List Char}
    (written : (Members.member l o tail).Written s) (enough : 2 * s.length ≤ fuel)
    (rest : List Char) : scanMembers fuel (skipSpace (s ++ rest)) = (.member l o tail, rest)

theorem Blank.skipSpace_opens {a s : List Char} (before : Blank a) (opens : Opens s)
    (rest : List Char) : skipSpace (a ++ (s ++ rest)) = s ++ rest := by
  rw [before.skipSpace_append, (opens.append rest).skipSpace]

theorem Items.Written.opens {head : Outline} {tail : Items} {s : List Char}
    (h : (Items.item head tail).Written s) (rest : List Char) : Opens (skipSpace (s ++ rest)) := by
  cases h with
  | last before value _ =>
      rw [List.append_assoc, List.append_assoc, before.skipSpace_opens value.opens]
      exact value.opens.append _
  | more before value _ _ =>
      rw [List.append_assoc, List.append_assoc, before.skipSpace_opens value.opens]
      exact value.opens.append _

section Step

variable {n : Nat} {rest : List Char}

/-- After a comma that another element follows, scanning goes on with that element. -/
theorem scanItems_comma {head : Outline} {s u next : List Char}
    (first : scanValue n s = (head, u)) (comma : skipSpace u = ',' :: next)
    (opens : Opens (skipSpace next)) :
    scanItems (n + 1) s =
      (.item head (scanItems n (skipSpace next)).1, (scanItems n (skipSpace next)).2) := by
  rcases opens with ⟨c, later, text, -, other⟩
  simp [scanItems, first, comma, text, other]

theorem Reaches.items_succ (h : Reaches n) {head : Outline} {tail : Items} {s : List Char}
    (written : (Items.item head tail).Written s) (enough : 2 * s.length ≤ n + 1)
    (rest : List Char) : scanItems (n + 1) (skipSpace (s ++ rest)) = (.item head tail, rest) := by
  cases written with
  | @last _ a s b before value after =>
      simp only [List.length_append, List.length_cons, List.length_nil] at enough
      have first := h.value value (by omega) (after.ends (ends_cons (c := ']') (by simp) rest))
      simp only [List.append_assoc, List.cons_append, List.nil_append]
      rw [before.skipSpace_opens value.opens]
      simp [scanItems, first, after.skipSpace_append, skipSpace_cons, isSpace]
  | @more _ next tail a s b t before value after later =>
      simp only [List.length_append, List.length_cons] at enough
      have first :=
        h.value value (by omega) (after.ends (ends_cons (c := ',') (by simp) (t ++ rest)))
      have comma : skipSpace (b ++ ',' :: (t ++ rest)) = ',' :: (t ++ rest) := by
        rw [after.skipSpace_append, skipSpace_cons rfl]
      simp only [List.append_assoc, List.cons_append]
      rw [before.skipSpace_opens value.opens, scanItems_comma first comma (later.opens rest),
        h.items later (by omega) rest]

theorem Blank.scanValue_append {a : List Char} (blank : Blank a) (n : Nat) (s : List Char) :
    scanValue n (a ++ s) = scanValue n s := by
  cases n with
  | zero => rfl
  | succ n => rw [scanValue, scanValue, blank.skipSpace_append]

theorem Literal.Written.scanned {l : Literal} {s : List Char} (h : l.Written s) (rest : List Char) :
    ∃ t, s ++ rest = '"' :: t ∧ scanLiteral t = (l, rest) := by
  cases h with
  | quoted pieces => exact ⟨_, by simp, scanLiteral_pieces pieces rest⟩

theorem Literal.Written.opens {l : Literal} {s : List Char} (h : l.Written s) : Opens s :=
  (Outline.Written.string h).opens

theorem Members.Written.quoted {l : Literal} {o : Outline} {tail : Members} {s : List Char}
    (h : (Members.member l o tail).Written s) (rest : List Char) :
    ∃ t, skipSpace (s ++ rest) = '"' :: t := by
  cases h with
  | last before name _ _ _ _ =>
      rw [List.append_assoc, List.append_assoc, before.skipSpace_opens name.opens]
      rcases name.scanned _ with ⟨t, same, -⟩
      exact ⟨t, same⟩
  | more before name _ _ _ _ _ =>
      rw [List.append_assoc, List.append_assoc, before.skipSpace_opens name.opens]
      rcases name.scanned _ with ⟨t, same, -⟩
      exact ⟨t, same⟩

section Member

variable {l : Literal} {o : Outline} {name s t u : List Char}

theorem scanMembers_close (quoted : l.Written name) (colon : skipSpace t = ':' :: s)
    (value : scanValue n s = (o, u)) (closed : skipSpace u = '}' :: rest) :
    scanMembers (n + 1) (name ++ t) = (.member l o .close, rest) := by
  rcases quoted.scanned t with ⟨later, text, literal⟩
  rw [text]
  simp [scanMembers, literal, colon, value, closed]

/-- After a comma that another name follows, scanning goes on with that name. -/
theorem scanMembers_comma {next later : List Char} (quoted : l.Written name)
    (colon : skipSpace t = ':' :: s) (value : scanValue n s = (o, u))
    (comma : skipSpace u = ',' :: next) (quote : skipSpace next = '"' :: later) :
    scanMembers (n + 1) (name ++ t) =
      (.member l o (scanMembers n (skipSpace next)).1, (scanMembers n (skipSpace next)).2) := by
  rcases quoted.scanned t with ⟨rest, text, literal⟩
  rw [text]
  simp [scanMembers, literal, colon, value, comma, quote]

end Member

theorem Reaches.members_succ (h : Reaches n) {l : Literal} {o : Outline} {tail : Members}
    {s : List Char} (written : (Members.member l o tail).Written s)
    (enough : 2 * s.length ≤ n + 1) (rest : List Char) :
    scanMembers (n + 1) (skipSpace (s ++ rest)) = (.member l o tail, rest) := by
  cases written with
  | @last _ _ a name b c s d before quoted colon gap value after =>
      simp only [List.length_append, List.length_cons, List.length_nil] at enough
      have first := h.value value (by omega) (after.ends (ends_cons (c := '}') (by simp) rest))
      rw [← gap.scanValue_append] at first
      have then_value : skipSpace (b ++ ':' :: (c ++ (s ++ (d ++ '}' :: rest)))) =
          ':' :: (c ++ (s ++ (d ++ '}' :: rest))) := by
        rw [colon.skipSpace_append, skipSpace_cons rfl]
      have closed : skipSpace (d ++ '}' :: rest) = '}' :: rest := by
        rw [after.skipSpace_append, skipSpace_cons rfl]
      simp only [List.append_assoc, List.cons_append, List.nil_append]
      rw [before.skipSpace_opens quoted.opens, scanMembers_close quoted then_value first closed]
  | @more _ l' _ o' tail a name b c s d t before quoted colon gap value after later =>
      simp only [List.length_append, List.length_cons] at enough
      have first :=
        h.value value (by omega) (after.ends (ends_cons (c := ',') (by simp) (t ++ rest)))
      rw [← gap.scanValue_append] at first
      have then_value : skipSpace (b ++ ':' :: (c ++ (s ++ (d ++ ',' :: (t ++ rest))))) =
          ':' :: (c ++ (s ++ (d ++ ',' :: (t ++ rest)))) := by
        rw [colon.skipSpace_append, skipSpace_cons rfl]
      have comma : skipSpace (d ++ ',' :: (t ++ rest)) = ',' :: (t ++ rest) := by
        rw [after.skipSpace_append, skipSpace_cons rfl]
      rcases later.quoted rest with ⟨u, quote⟩
      simp only [List.append_assoc, List.cons_append]
      rw [before.skipSpace_opens quoted.opens,
        scanMembers_comma quoted then_value first comma quote, h.members later (by omega) rest]

theorem Reaches.value_succ (h : Reaches n) {o : Outline} {s rest : List Char}
    (written : o.Written s) (enough : 2 * s.length ≤ n + 1) (ends : Ends rest) :
    scanValue (n + 1) (s ++ rest) = (o, rest) := by
  cases written with
  | null => simp [scanValue, skipSpace, isSpace, scanWord]
  | true => simp [scanValue, skipSpace, isSpace, scanWord]
  | false => simp [scanValue, skipSpace, isSpace, scanWord]
  | numeral written => exact scanValue_numeral written ends n
  | string written =>
      rcases written.scanned rest with ⟨t, text, literal⟩
      rw [text]
      simp [scanValue, skipSpace_cons, isSpace, literal]
  | @array items t inside =>
      simp only [List.length_cons] at enough
      rw [List.cons_append, scanValue, skipSpace_cons rfl]
      cases items with
      | close =>
          rcases inside with ⟨before⟩
          simp [before.skipSpace_append, skipSpace_cons, isSpace]
      | stop _ => cases inside
      | item head tail =>
          have scanned := h.items inside (by omega) rest
          rcases inside.opens rest with ⟨c, later, text, -, other⟩
          rw [text] at scanned
          simp [text, other, scanned]
  | @object members t inside =>
      simp only [List.length_cons] at enough
      rw [List.cons_append, scanValue, skipSpace_cons rfl]
      cases members with
      | close =>
          rcases inside with ⟨before⟩
          simp [before.skipSpace_append, skipSpace_cons, isSpace]
      | stop _ => cases inside
      | unnamed => cases inside
      | noColon _ _ => cases inside
      | member l o tail =>
          have scanned := h.members inside (by omega) rest
          rcases inside.quoted rest with ⟨u, text⟩
          rw [text] at scanned
          simp [text, scanned]

end Step

theorem reaches (fuel : Nat) : Reaches fuel := by
  induction fuel with
  | zero =>
      -- nothing that is written is empty
      refine ⟨fun written enough _ => ?_, fun written enough => ?_, fun written enough => ?_⟩
      · rcases written.opens with ⟨c, t, rfl, -⟩
        cases enough
      · cases written <;> simp at enough
      · cases written <;> simp at enough
  | succ n ih => exact ⟨ih.value_succ, ih.items_succ, ih.members_succ⟩

theorem scan_of_spells {text : List Char} {o : Outline} (h : Spells text o) :
    scan text = (o, false) := by
  rcases h with ⟨a, s, b, before, written, after, rfl⟩
  have all_blank : skipSpace b = [] := by
    simpa [skipSpace] using after.skipSpace_append []
  have ends : Ends b := by simpa using after.ends ends_nil
  have scanned := (reaches (2 * (a ++ (s ++ b)).length + 2)).value written (by simp; omega) ends
  rw [← before.scanValue_append] at scanned
  unfold scan
  rw [scanned]
  simp [all_blank]

end Json
end ApiCatalog
