import ApiCatalog.Json.Numeral

/-!
# Outlines

The outline of a JSON text is its tree of values as far as it can be made out, with every fault
kept at the place where reading stops. Scanning never fails; what a fault means is up to whoever
reads the outline, because a value that is skipped, one that is decoded and one that is kept are
held to different rules.

- `Literal`, `Outline`, `Items`, `Members` : the parts
- `scan`                                    : the outline of a text
- `Outline.skip`                            : the check of a value that nobody wants
-/

namespace ApiCatalog
namespace Json

/-! ## Parts -/

/-- A character of a string literal, or a code unit given by a `\u` escape. -/
inductive Piece
  | plain (c : Char)
  | codeUnit (n : Nat)
  deriving DecidableEq, Repr

/-- How a string literal ends. -/
inductive Ending
  | closed
  | missing
  | control
  | badEscape
  | badHex
  deriving DecidableEq, Repr

structure Literal where
  pieces : List Piece
  ending : Ending
  deriving DecidableEq, Repr

/-- Why a list of elements or members goes no further than it does. -/
inductive Stop
  | ended
  | foreign
  | commaThenClose
  | commaThenEnd
  deriving DecidableEq, Repr

mutual

inductive Outline
  | absent
  | foreign
  | cutWord (atEnd : Bool)
  | null
  | boolean (b : Bool)
  | numeral (n : Numeral)
  | cutNumeral (atEnd : Bool)
  | string (l : Literal)
  | array (items : Items)
  | object (members : Members)

inductive Items
  | close
  | stop (s : Stop)
  | item (head : Outline) (tail : Items)

/-- A member without a colon says whether the text ends there; `unnamed` stands where anything but
a string is in the place of a name. -/
inductive Members
  | close
  | stop (s : Stop)
  | unnamed
  | noColon (name : Literal) (atEnd : Bool)
  | member (name : Literal) (value : Outline) (tail : Members)

end

/-! ## Scanning the leaves -/

def isSpace (c : Char) : Bool :=
  c == ' ' || c == '\t' || c == '\n' || c == '\r'

def skipSpace (s : List Char) : List Char :=
  s.dropWhile isSpace

def hexValue? (c : Char) : Option Nat :=
  if '0' ≤ c && c ≤ '9' then some (c.toNat - '0'.toNat)
  else if 'a' ≤ c && c ≤ 'f' then some (c.toNat - 'a'.toNat + 10)
  else if 'A' ≤ c && c ≤ 'F' then some (c.toNat - 'A'.toNat + 10)
  else none

def codeUnit? (a b c d : Char) : Option Nat := do
  return (← hexValue? a) * 4096 + (← hexValue? b) * 256 + (← hexValue? c) * 16 + (← hexValue? d)

/-- The character that a backslash with `c` stands for. -/
def escaped? (c : Char) : Option Char :=
  match c with
  | '"' => some '"'
  | '\\' => some '\\'
  | '/' => some '/'
  | 'b' => some '\x08'
  | 'f' => some '\x0c'
  | 'n' => some '\n'
  | 'r' => some '\r'
  | 't' => some '\t'
  | _ => none

/-- Number of octets of a text in UTF-8. -/
def octetCount : List Char → Nat
  | [] => 0
  | c :: s => c.utf8Size + octetCount s

def Literal.cons (p : Piece) (scanned : Literal × List Char) : Literal × List Char :=
  ({ scanned.1 with pieces := p :: scanned.1.pieces }, scanned.2)

/-- Scans a string literal after its opening quote. A `\u` escape takes four octets; fewer mean
that the text ends. -/
def scanLiteral : List Char → Literal × List Char
  | [] => (⟨[], .missing⟩, [])
  | '"' :: rest => (⟨[], .closed⟩, rest)
  | '\\' :: 'u' :: a :: b :: c :: d :: rest =>
      match codeUnit? a b c d with
      | some n => Literal.cons (.codeUnit n) (scanLiteral rest)
      | none => (⟨[], .badHex⟩, [])
  | '\\' :: 'u' :: rest => (⟨[], if 4 ≤ octetCount rest then .badHex else .missing⟩, [])
  | '\\' :: c :: rest =>
      match escaped? c with
      | some e => Literal.cons (.plain e) (scanLiteral rest)
      | none => (⟨[], .badEscape⟩, [])
  | ['\\'] => (⟨[], .missing⟩, [])
  | c :: rest =>
      if c.toNat < 0x20 then (⟨[], .control⟩, []) else Literal.cons (.plain c) (scanLiteral rest)

def digitValue (c : Char) : Nat :=
  c.toNat - '0'.toNat

def leadingDigits (s : List Char) : List Nat :=
  (s.takeWhile Char.isDigit).map digitValue

def afterDigits (s : List Char) : List Char :=
  s.dropWhile Char.isDigit

/-- Scans the exponent part, if there is one. -/
def scanExponent (s : List Char) : Except Bool (Option Exponent × List Char) :=
  let digitsOf (minus : Bool) (t : List Char) : Except Bool (Option Exponent × List Char) :=
    if (leadingDigits t).isEmpty then .error t.isEmpty
    else .ok (some ⟨minus, leadingDigits t⟩, afterDigits t)
  match s with
  | c :: rest =>
      if c == 'e' || c == 'E' then
        match rest with
        | '+' :: t => digitsOf false t
        | '-' :: t => digitsOf true t
        | t => digitsOf false t
      else .ok (none, s)
  | [] => .ok (none, [])

/-- Scans the decimals, if there are any. -/
def scanDecimals (s : List Char) : Except Bool (Option (List Nat) × List Char) :=
  match s with
  | '.' :: t =>
      if (leadingDigits t).isEmpty then .error t.isEmpty
      else .ok (some (leadingDigits t), afterDigits t)
  | _ => .ok (none, s)

/-- Scans the digits before the point: a leading zero stands alone. -/
def scanWhole (s : List Char) : Except Bool (List Nat × List Char) :=
  match leadingDigits s with
  | [] => .error s.isEmpty
  | 0 :: _ :: _ => .error false
  | ds => .ok (ds, afterDigits s)

/-- Scans a numeral after its sign; a failure says whether the text ends there. -/
def scanNumeral (minus : Bool) (s : List Char) : Except Bool (Numeral × List Char) := do
  let (whole, s) ← scanWhole s
  let (decimals, s) ← scanDecimals s
  let (exponent, s) ← scanExponent s
  return (⟨minus, whole, decimals, exponent⟩, s)

def numeralOutline (minus : Bool) (s : List Char) : Outline × List Char :=
  match scanNumeral minus s with
  | .ok (n, rest) => (.numeral n, rest)
  | .error atEnd => (.cutNumeral atEnd, [])

/-- Scans the letters that a word still needs. -/
def scanWord (word : Outline) : List Char → List Char → Outline × List Char
  | [], s => (word, s)
  | _ :: _, [] => (.cutWord true, [])
  | c :: cs, d :: s => if c = d then scanWord word cs s else (.cutWord false, [])

/-! ## Scanning the tree

Every value takes a character, so twice the length of the text bounds the depth of the calls. -/

mutual

def scanValue : Nat → List Char → Outline × List Char
  | 0, _ => (.absent, [])
  | fuel + 1, s =>
      match skipSpace s with
      | [] => (.absent, [])
      | 'n' :: rest => scanWord .null ['u', 'l', 'l'] rest
      | 't' :: rest => scanWord (.boolean true) ['r', 'u', 'e'] rest
      | 'f' :: rest => scanWord (.boolean false) ['a', 'l', 's', 'e'] rest
      | '"' :: rest => (.string (scanLiteral rest).1, (scanLiteral rest).2)
      | '-' :: rest => numeralOutline true rest
      | '[' :: rest =>
          match skipSpace rest with
          | [] => (.array (.stop .ended), [])
          | ']' :: after => (.array .close, after)
          | inside => (.array (scanItems fuel inside).1, (scanItems fuel inside).2)
      | '{' :: rest =>
          match skipSpace rest with
          | [] => (.object (.stop .ended), [])
          | '}' :: after => (.object .close, after)
          | inside => (.object (scanMembers fuel inside).1, (scanMembers fuel inside).2)
      | c :: rest => if c.isDigit then numeralOutline false (c :: rest) else (.foreign, c :: rest)

/-- Scans an element and what follows it. -/
def scanItems : Nat → List Char → Items × List Char
  | 0, _ => (.stop .ended, [])
  | fuel + 1, s =>
      let (head, after) := scanValue fuel s
      match skipSpace after with
      | [] => (.item head (.stop .ended), [])
      | ']' :: rest => (.item head .close, rest)
      | ',' :: rest =>
          match skipSpace rest with
          | [] => (.item head (.stop .commaThenEnd), [])
          | ']' :: rest => (.item head (.stop .commaThenClose), rest)
          | next => (.item head (scanItems fuel next).1, (scanItems fuel next).2)
      | rest => (.item head (.stop .foreign), rest)

/-- Scans a member and what follows it. -/
def scanMembers : Nat → List Char → Members × List Char
  | 0, _ => (.stop .ended, [])
  | fuel + 1, '"' :: s =>
      let (name, after) := scanLiteral s
      match skipSpace after with
      | [] => (.noColon name true, [])
      | ':' :: rest =>
          let (value, after) := scanValue fuel rest
          match skipSpace after with
          | [] => (.member name value (.stop .ended), [])
          | '}' :: rest => (.member name value .close, rest)
          | ',' :: rest =>
              match skipSpace rest with
              | [] => (.member name value (.stop .commaThenEnd), [])
              | '}' :: rest => (.member name value (.stop .commaThenClose), rest)
              | next => (.member name value (scanMembers fuel next).1, (scanMembers fuel next).2)
          | rest => (.member name value (.stop .foreign), rest)
      | rest => (.noColon name false, rest)
  | _ + 1, _ => (.unnamed, [])

end

/-- The outline of a text, and whether anything but white space follows the value. -/
def scan (s : List Char) : Outline × Bool :=
  let (outline, rest) := scanValue (2 * s.length + 2) s
  (outline, !(skipSpace rest).isEmpty)

/-! ## Skipping -/

/-- The fault of a stop in a list of elements that somebody reads. -/
def Stop.inArray : Stop → Fault
  | .ended => .endOfList
  | .foreign => .expectedCommaOrBracket
  | .commaThenClose => .trailingComma
  | .commaThenEnd => .endOfValue

/-- The fault of a stop in an object that somebody reads. -/
def Stop.inObject : Stop → Fault
  | .ended => .endOfObject
  | .foreign => .expectedCommaOrBrace
  | .commaThenClose => .trailingComma
  | .commaThenEnd => .endOfValue

/-- In a skipped array an element is due after a comma. -/
def Stop.inSkippedArray : Stop → Fault
  | .commaThenClose => .expectedValue
  | s => s.inArray

/-- In a skipped object a name is due after a comma. -/
def Stop.inSkippedObject : Stop → Fault
  | .commaThenClose => .nameNotString
  | .commaThenEnd => .endOfObject
  | s => s.inObject

def colonFault (atEnd : Bool) : Fault :=
  if atEnd then .endOfObject else .expectedColon

/-- A skipped literal has to end and to spell its escapes; its code units need not pair up. -/
def Literal.skip (l : Literal) : Except Fault Unit :=
  match l.ending with
  | .closed => .ok ()
  | .missing => .error .endOfString
  | .control => .error .controlCharacter
  | .badEscape | .badHex => .error .invalidEscape

mutual

/-- Checks the form of a value and nothing else. -/
def Outline.skip : Outline → Except Fault Unit
  | .absent => .error .endOfValue
  | .foreign => .error .expectedValue
  | .cutWord atEnd => .error (if atEnd then .endOfValue else .expectedWord)
  | .cutNumeral _ => .error .invalidNumber
  | .null | .boolean _ | .numeral _ => .ok ()
  | .string l => l.skip
  | .array items => items.skip
  | .object members => members.skip

def Items.skip : Items → Except Fault Unit
  | .close => .ok ()
  | .stop s => .error s.inSkippedArray
  | .item head tail => do
      head.skip
      tail.skip

def Members.skip : Members → Except Fault Unit
  | .close => .ok ()
  | .stop s => .error s.inSkippedObject
  | .unnamed => .error .nameNotString
  | .noColon name atEnd => do
      name.skip
      .error (colonFault atEnd)
  | .member name value tail => do
      name.skip
      value.skip
      tail.skip

end

end Json
end ApiCatalog
