import Mathlib.Data.List.Forall2
import ApiCatalog.Json.Value
import ApiCatalog.Proofs.Json.Scanning

/-!
# What is printed

The compact text of a value is a spelling of an outline that says the same: without white space, and
with every character that needs it escaped.

- `Json.written_string`, `Json.written_natural`, `Json.written_array`, … : the texts of values
- `Json.text_spelled` : the text of a literal that was printed
- `Json.scan_print`   : the outline of a printed value
-/

namespace ApiCatalog
namespace Json

/-! ## Words -/

theorem written_null : Outline.null.Written (Value.print .null) := by
  simpa only [Value.print] using Outline.Written.null

theorem written_boolean (b : Bool) : (Outline.boolean b).Written (Value.print (.boolean b)) := by
  cases b with
  | true => simpa only [Value.print] using Outline.Written.true
  | false => simpa only [Value.print] using Outline.Written.false

/-! ## Literals -/

/-- The piece that a printed character is scanned as. -/
def piece (c : Char) : Piece :=
  if c.toNat < 0x20 ∧ c ∉ ['\x08', '\x0c', '\n', '\r', '\t'] then .codeUnit c.toNat else .plain c

/-- The literal of a text. -/
def spelled (s : String) : Literal :=
  ⟨s.toList.map piece, .closed⟩

theorem codeUnit?_hexDigit :
    ∀ n < 0x20, codeUnit? '0' '0' (hexDigit (n / 16)) (hexDigit (n % 16)) = some n := by
  decide

theorem written_piece (c : Char) : (piece c).Written (escape c) := by
  unfold escape
  split
  case h_8 quote backslash back feed line carriage tab =>
    have other : c ∉ ['\x08', '\x0c', '\n', '\r', '\t'] := by
      simp only [List.mem_cons, List.not_mem_nil, or_false, not_or]
      exact ⟨back, feed, line, carriage, tab⟩
    split
    · next control =>
        simpa [piece, control, other] using Piece.Written.codeUnit (codeUnit?_hexDigit _ control)
    · next visible =>
        simpa [piece, visible] using Piece.Written.plain quote backslash visible
  all_goals exact .escaped rfl

theorem written_pieces (s : List Char) : PiecesWritten (s.map piece) (s.flatMap escape) := by
  induction s with
  | nil => exact .nil
  | cons c rest ih => exact .cons (written_piece c) ih

theorem written_spelled (s : String) : (spelled s).Written (printString s) :=
  .quoted (written_pieces s.toList)

theorem written_string (s : String) :
    (Outline.string (spelled s)).Written (Value.print (.string s)) := by
  simpa only [Value.print] using Outline.Written.string (written_spelled s)

theorem joinPieces_piece (c : Char) (pieces : List Piece) :
    joinPieces .closed (piece c :: pieces) = do return c :: (← joinPieces .closed pieces) := by
  unfold piece
  split
  · next control =>
      -- a control character is no surrogate
      have low : isLowSurrogate c.toNat = false := by simp [isLowSurrogate]; omega
      have high : isHighSurrogate c.toNat = false := by simp [isHighSurrogate]; omega
      rw [joinPieces.eq_def]
      simp [low, high, Char.ofNat_toNat]
  · rfl

/-- The pieces of a printed text stand for its characters. -/
theorem text_spelled (s : String) : (spelled s).text = .ok s := by
  have joined (chars : List Char) : joinPieces .closed (chars.map piece) = .ok chars := by
    induction chars with
    | nil => rfl
    | cons c rest ih =>
        rw [List.map_cons, joinPieces_piece, ih]
        rfl
  simp [Literal.text, spelled, joined, bind, Except.bind, pure, Except.pure]

/-! ## Numerals -/

/-- No digit of a positive number is in front of its first one. -/
theorem toDigits_eq_zero_cons {n : Nat} {later : List Char}
    (digits : Nat.toDigits 10 n = '0' :: later) : later = [] := by
  induction n using Nat.strongRecOn generalizing later with
  | ind n ih =>
      by_cases small : n < 10
      · rw [Nat.toDigits_of_lt_base small] at digits
        exact (List.cons.inj digits).2.symm
      · -- the digits of a tenth of the number come first, and are not a single zero
        rw [Nat.toDigits_of_base_le (by decide) (by omega)] at digits
        rcases front : Nat.toDigits 10 (n / 10) with _ | ⟨c, rest⟩
        · exact absurd front Nat.toDigits_ne_nil
        · rw [front] at digits
          cases digits
          have alone := ih (n / 10) (by omega) front
          have value : n / 10 = Nat.ofDigitChars 10 (Nat.toDigits 10 (n / 10)) 0 :=
            Nat.ofDigitChars_ten_toDigits.symm
          rw [front, alone] at value
          have zero : n / 10 = 0 := by simpa [Nat.ofDigitChars] using value
          omega

/-- The numeral of a natural number. -/
def numeralOf (n : Nat) : Numeral :=
  ⟨false, (Nat.toDigits 10 n).map digitValue, none, none⟩

theorem written_numeralOf (n : Nat) : (numeralOf n).Written (Nat.toDigits 10 n) := by
  have whole : WholeWritten ((Nat.toDigits 10 n).map digitValue) (Nat.toDigits 10 n) := by
    refine ⟨⟨Nat.toDigits_ne_nil, ?_, rfl⟩, fun zero => ?_⟩
    · exact fun c mem => Nat.isDigit_of_mem_toDigits (by decide) (by decide) mem
    · rcases List.head?_eq_some_iff.1 zero with ⟨later, digits⟩
      rw [digits, toDigits_eq_zero_cons digits]
  have unsigned : (false, []) ∈ [(false, ([] : List Char)), (true, ['-'])] := List.mem_cons_self
  simpa [numeralOf] using Numeral.Written.parts unsigned whole .absent .absent

theorem written_natural (n : Nat) :
    (Outline.numeral (numeralOf n)).Written (Value.print (.number (.natural n))) := by
  simpa [Value.print, Number.render] using Outline.Written.numeral (written_numeralOf n)

/-! ## Lists -/

theorem written_items {vs : List Value} {os : List Outline}
    (each : List.Forall₂ (fun v o => o.Written v.print) vs os) :
    (Items.listed os).Written (printItems vs ++ [']']) := by
  induction each with
  | nil => exact .close blank_nil
  | @cons v o vs os first others ih =>
      cases others with
      | nil => exact .last blank_nil first blank_nil
      | cons _ _ =>
          simpa [printItems, Items.listed] using Items.Written.more blank_nil first blank_nil ih

theorem written_array {vs : List Value} {os : List Outline}
    (each : List.Forall₂ (fun v o => o.Written v.print) vs os) :
    (Outline.array (Items.listed os)).Written (Value.print (.array vs)) := by
  simpa [Value.print] using Outline.Written.array (written_items each)

/-! ## Objects -/

/-- A member is printed under its name. -/
def PrintedMember (m : String × Value) (o : Literal × Outline) : Prop :=
  o.1 = spelled m.1 ∧ o.2.Written m.2.print

theorem written_members {ms : List (String × Value)} {os : List (Literal × Outline)}
    (each : List.Forall₂ PrintedMember ms os) :
    (Members.listed os).Written (printMembers ms ++ ['}']) := by
  induction each with
  | nil => exact .close blank_nil
  | @cons m o ms os first others ih =>
      rcases m with ⟨name, v⟩
      rcases o with ⟨_, o⟩
      obtain ⟨rfl, (value : o.Written v.print)⟩ := first
      cases others with
      | nil =>
          simpa [printMembers, Members.listed] using Members.Written.last blank_nil
            (written_spelled name) blank_nil blank_nil value blank_nil
      | cons _ _ =>
          simpa [printMembers, Members.listed] using Members.Written.more blank_nil
            (written_spelled name) blank_nil blank_nil value blank_nil ih

theorem written_object {ms : List (String × Value)} {os : List (Literal × Outline)}
    (each : List.Forall₂ PrintedMember ms os) :
    (Outline.object (Members.listed os)).Written (Value.print (.object ms)) := by
  simpa [Value.print] using Outline.Written.object (written_members each)

/-! ## Whole texts -/

/-- The outline of a printed value is its own, and nothing follows it. -/
theorem scan_print {v : Value} {o : Outline} (written : o.Written v.print) :
    scan v.print = (o, false) :=
  scan_of_spells ⟨[], v.print, [], blank_nil, written, blank_nil, by simp⟩

end Json
end ApiCatalog
