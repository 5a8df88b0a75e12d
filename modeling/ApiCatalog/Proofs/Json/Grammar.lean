import ApiCatalog.Json.Outline

/-!
# The grammar of JSON

How an outline may be written: with white space around every part, with characters of a literal as
they are or escaped, and with digits as they are. A text that breaks off or holds anything foreign
is no way to write an outline, so only outlines without a fault are written at all.

- `Json.Literal.Written`, `Json.Numeral.Written` : the leaves
- `Json.Outline.Written`, `Json.Items.Written`, `Json.Members.Written` : values, and what is between
  brackets or braces
- `Json.Items.listed`, `Json.Members.listed` : arrays and objects that close, as lists
- `Json.Spells` : a whole text
-/

namespace ApiCatalog
namespace Json

/-! ## Leaves -/

/-- White space, or nothing. -/
def Blank (s : List Char) : Prop :=
  ∀ c ∈ s, isSpace c = true

theorem blank_nil : Blank [] :=
  nofun

inductive Piece.Written : Piece → List Char → Prop
  | plain {c : Char} (quote : c ≠ '"') (backslash : c ≠ '\\') (visible : ¬c.toNat < 0x20) :
      Written (.plain c) [c]
  | escaped {c e : Char} (known : escaped? c = some e) : Written (.plain e) ['\\', c]
  | codeUnit {a b c d : Char} {n : Nat} (digits : codeUnit? a b c d = some n) :
      Written (.codeUnit n) ['\\', 'u', a, b, c, d]

inductive PiecesWritten : List Piece → List Char → Prop
  | nil : PiecesWritten [] []
  | cons {p : Piece} {ps : List Piece} {s t : List Char} (first : p.Written s)
      (rest : PiecesWritten ps t) : PiecesWritten (p :: ps) (s ++ t)

inductive Literal.Written : Literal → List Char → Prop
  | quoted {ps : List Piece} {s : List Char} (pieces : PiecesWritten ps s) :
      Written ⟨ps, .closed⟩ ('"' :: (s ++ ['"']))

/-- At least one digit, and nothing else. -/
structure DigitsWritten (ds : List Nat) (s : List Char) : Prop where
  some_digit : s ≠ []
  digits : ∀ c ∈ s, c.isDigit = true
  values : s.map digitValue = ds

/-- A leading zero stands alone. -/
structure WholeWritten (ds : List Nat) (s : List Char) : Prop extends DigitsWritten ds s where
  alone : s.head? = some '0' → s = ['0']

inductive DecimalsWritten : Option (List Nat) → List Char → Prop
  | absent : DecimalsWritten none []
  | present {ds : List Nat} {s : List Char} (written : DigitsWritten ds s) :
      DecimalsWritten (some ds) ('.' :: s)

inductive ExponentWritten : Option Exponent → List Char → Prop
  | absent : ExponentWritten none []
  | present {mark : Char} {minus : Bool} {sign : List Char} {ds : List Nat} {s : List Char}
      (marked : mark = 'e' ∨ mark = 'E')
      (signed : (minus, sign) ∈ [(false, []), (false, ['+']), (true, ['-'])])
      (written : DigitsWritten ds s) : ExponentWritten (some ⟨minus, ds⟩) (mark :: (sign ++ s))

inductive Numeral.Written : Numeral → List Char → Prop
  | parts {minus : Bool} {sign : List Char} {ds : List Nat} {decimals : Option (List Nat)}
      {exponent : Option Exponent} {s t u : List Char}
      (signed : (minus, sign) ∈ [(false, []), (true, ['-'])]) (whole : WholeWritten ds s)
      (point : DecimalsWritten decimals t) (power : ExponentWritten exponent u) :
      Written ⟨minus, ds, decimals, exponent⟩ (sign ++ (s ++ (t ++ u)))

/-! ## Values -/

mutual

inductive Outline.Written : Outline → List Char → Prop
  | null : Outline.Written .null ['n', 'u', 'l', 'l']
  | true : Outline.Written (.boolean true) ['t', 'r', 'u', 'e']
  | false : Outline.Written (.boolean false) ['f', 'a', 'l', 's', 'e']
  | numeral {n : Numeral} {s : List Char} (written : n.Written s) : Outline.Written (.numeral n) s
  | string {l : Literal} {s : List Char} (written : l.Written s) : Outline.Written (.string l) s
  | array {items : Items} {s : List Char} (inside : items.Written s) :
      Outline.Written (.array items) ('[' :: s)
  | object {members : Members} {s : List Char} (inside : members.Written s) :
      Outline.Written (.object members) ('{' :: s)

/-- The elements of an array and its closing bracket. -/
inductive Items.Written : Items → List Char → Prop
  | close {a : List Char} (before : Blank a) : Items.Written .close (a ++ [']'])
  | last {head : Outline} {a s b : List Char} (before : Blank a) (value : head.Written s)
      (after : Blank b) : Items.Written (.item head .close) (a ++ (s ++ (b ++ [']'])))
  | more {head next : Outline} {tail : Items} {a s b t : List Char} (before : Blank a)
      (value : head.Written s) (after : Blank b) (rest : Items.Written (.item next tail) t) :
      Items.Written (.item head (.item next tail)) (a ++ (s ++ (b ++ ',' :: t)))

/-- The members of an object and its closing brace. -/
inductive Members.Written : Members → List Char → Prop
  | close {a : List Char} (before : Blank a) : Members.Written .close (a ++ ['}'])
  | last {l : Literal} {o : Outline} {a n b c s d : List Char} (before : Blank a)
      (name : l.Written n) (colon : Blank b) (gap : Blank c) (value : o.Written s)
      (after : Blank d) :
      Members.Written (.member l o .close) (a ++ (n ++ (b ++ ':' :: (c ++ (s ++ (d ++ ['}']))))))
  | more {l l' : Literal} {o o' : Outline} {tail : Members} {a n b c s d t : List Char}
      (before : Blank a) (name : l.Written n) (colon : Blank b) (gap : Blank c)
      (value : o.Written s) (after : Blank d) (rest : Members.Written (.member l' o' tail) t) :
      Members.Written (.member l o (.member l' o' tail))
        (a ++ (n ++ (b ++ ':' :: (c ++ (s ++ (d ++ ',' :: t))))))

end

/-! ## Lists -/

/-- The elements of an array that closes. -/
def Items.listed : List Outline → Items
  | [] => .close
  | o :: os => .item o (listed os)

/-- The members of an object that closes, with their names as they are written. -/
def Members.listed : List (Literal × Outline) → Members
  | [] => .close
  | (name, value) :: ms => .member name value (listed ms)

/-! ## Texts -/

/-- The text is a value with white space around it. -/
def Spells (text : List Char) (o : Outline) : Prop :=
  ∃ a s b, Blank a ∧ o.Written s ∧ Blank b ∧ text = a ++ (s ++ b)

end Json
end ApiCatalog
