import ApiCatalog.Json.Outline

/-!
# Values

JSON values as they are kept and written.

- `Value.print`   : the compact text, without white space
- `Outline.keep`  : the value of an outline that nests no deeper than allowed
- `Value.lookup?` : the member of an object; the last of a name counts
-/

namespace ApiCatalog
namespace Json

/-- An object keeps its members in order, repeated names included. -/
inductive Value
  | null
  | boolean (b : Bool)
  | number (n : Number)
  | string (s : String)
  | array (items : List Value)
  | object (members : List (String × Value))

/-! ## Printing -/

def hexDigit (n : Nat) : Char :=
  if n < 10 then Char.ofNat ('0'.toNat + n) else Char.ofNat ('a'.toNat + (n - 10))

/-- How a character is written in a string literal: the quote, the backslash and the controls are
escaped, nothing else is. -/
def escape (c : Char) : List Char :=
  match c with
  | '"' => ['\\', '"']
  | '\\' => ['\\', '\\']
  | '\x08' => ['\\', 'b']
  | '\x0c' => ['\\', 'f']
  | '\n' => ['\\', 'n']
  | '\r' => ['\\', 'r']
  | '\t' => ['\\', 't']
  | c =>
      if c.toNat < 0x20 then ['\\', 'u', '0', '0', hexDigit (c.toNat / 16), hexDigit (c.toNat % 16)]
      else [c]

def printString (s : String) : List Char :=
  '"' :: s.toList.flatMap escape ++ ['"']

mutual

def Value.print : Value → List Char
  | .null => ['n', 'u', 'l', 'l']
  | .boolean true => ['t', 'r', 'u', 'e']
  | .boolean false => ['f', 'a', 'l', 's', 'e']
  | .number n => n.render.toList
  | .string s => printString s
  | .array items => '[' :: printItems items ++ [']']
  | .object members => '{' :: printMembers members ++ ['}']

def printItems : List Value → List Char
  | [] => []
  | [v] => v.print
  | v :: vs => v.print ++ ',' :: printItems vs

def printMembers : List (String × Value) → List Char
  | [] => []
  | [(name, v)] => printString name ++ ':' :: v.print
  | (name, v) :: rest => printString name ++ ':' :: v.print ++ ',' :: printMembers rest

end

/-- The compact text of a value. -/
def Value.compact (v : Value) : String :=
  .ofList v.print

/-! ## Literals -/

def isHighSurrogate (n : Nat) : Bool := 0xD800 ≤ n && n ≤ 0xDBFF

def isLowSurrogate (n : Nat) : Bool := 0xDC00 ≤ n && n ≤ 0xDFFF

def pairedScalar (high low : Nat) : Char :=
  .ofNat (0x10000 + (high - 0xD800) * 0x400 + (low - 0xDC00))

/-- The characters that the pieces of a literal stand for. A high surrogate needs an escaped low
one right after it; a low one needs a high one right before. -/
def joinPieces (ending : Ending) : List Piece → Except Fault (List Char)
  | [] =>
      match ending with
      | .closed => .ok []
      | .missing => .error .endOfString
      | .control => .error .controlCharacter
      | .badEscape | .badHex => .error .invalidEscape
  | .plain c :: rest => do return c :: (← joinPieces ending rest)
  | .codeUnit n :: rest =>
      if isLowSurrogate n then .error .loneSurrogate
      else if !isHighSurrogate n then do return Char.ofNat n :: (← joinPieces ending rest)
      else
        match rest with
        | .codeUnit m :: rest' =>
            if isLowSurrogate m then do return pairedScalar n m :: (← joinPieces ending rest')
            else .error .loneSurrogate
        | .plain _ :: _ => .error .endOfHexEscape
        | [] =>
            match ending with
            | .missing => .error .endOfString
            | .badHex => .error .invalidEscape
            | _ => .error .endOfHexEscape

/-- The text of a literal. -/
def Literal.text (l : Literal) : Except Fault String := do
  return .ofList (← joinPieces l.ending l.pieces)

/-! ## Keeping -/

/-- How deep arrays and objects may nest in a value that is kept. -/
def depthLimit : Nat := 127

mutual

/-- The value of an outline; `depth` is the number of levels that may still be opened. -/
def Outline.keep (depth : Nat) : Outline → Except Fault Value
  | .absent => .error .endOfValue
  | .foreign => .error .expectedValue
  | .cutWord atEnd => .error (if atEnd then .endOfValue else .expectedWord)
  | .cutNumeral atEnd => .error (if atEnd then .endOfValue else .invalidNumber)
  | .null => .ok .null
  | .boolean b => .ok (.boolean b)
  | .numeral n => do return .number (← n.value)
  | .string l => do return .string (← l.text)
  | .array items =>
      match depth with
      | 0 => .error .tooDeep
      | d + 1 => do return .array (← items.keep d)
  | .object members =>
      match depth with
      | 0 => .error .tooDeep
      | d + 1 => do return .object (← members.keep d)

def Items.keep (depth : Nat) : Items → Except Fault (List Value)
  | .close => .ok []
  | .stop s => .error s.inArray
  | .item head tail => do
      let v ← head.keep depth
      return v :: (← tail.keep depth)

def Members.keep (depth : Nat) : Members → Except Fault (List (String × Value))
  | .close => .ok []
  | .stop s => .error s.inObject
  | .unnamed => .error .nameNotString
  | .noColon name atEnd => do
      let _ ← name.text
      .error (colonFault atEnd)
  | .member name value tail => do
      let k ← name.text
      let v ← value.keep depth
      return (k, v) :: (← tail.keep depth)

end

/-! ## Looking up -/

/-- The last member of that name; a value that is no object has none. -/
def Value.lookup? (v : Value) (name : String) : Option Value :=
  match v with
  | .object members => (members.reverse.find? (·.1 == name)).map (·.2)
  | _ => none

/-- The text of a string member, and the empty text when there is none. -/
def Value.textOf (v : Value) (name : String) : String :=
  match v.lookup? name with
  | some (.string s) => s
  | _ => ""

end Json
end ApiCatalog
