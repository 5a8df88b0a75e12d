import ApiCatalog.Decimal.Shortest
import ApiCatalog.Text.Quoted

/-!
# Faults of a JSON text

Why a text is refused: it ends too early, it breaks the grammar, or it holds something else than
was asked for. Each cause is a constructor; `Fault.message` is the one place with their wording.
-/

namespace ApiCatalog
namespace Json

/-! ## Numbers -/

/-- A number as it is kept: whole while it fits 64 bits, else a binary approximation. -/
inductive Number
  | natural (n : Nat)
  | negative (n : Nat)
  | real (minus : Bool) (magnitude : Binary64)
  deriving DecidableEq, Repr

def Number.render : Number → String
  | .natural n => toString n
  | .negative n => "-" ++ toString n
  | .real minus magnitude => magnitude.render minus

/-! ## Causes -/

/-- What was met where something else was asked for. -/
inductive Found
  | null
  | boolean (b : Bool)
  | number (n : Number)
  | string (s : String)
  | sequence
  | map
  deriving DecidableEq, Repr

inductive Fault
  | missingField (name : String)
  | duplicateField (name : String)
  | invalidType (found : Found) (expected : String)
  | invalidValue (found : Found) (expected : String)
  | invalidLength (length : Nat) (expected : String)
  | unknownVariant (name : String) (known : List String)
  | endOfValue
  | endOfObject
  | endOfList
  | endOfString
  | expectedValue
  | expectedWord
  | expectedColon
  | expectedCommaOrBrace
  | expectedCommaOrBracket
  | nameNotString
  | trailingComma
  | trailingCharacters
  | invalidNumber
  | numberOutOfRange
  | invalidEscape
  | controlCharacter
  | endOfHexEscape
  | loneSurrogate
  | tooDeep
  deriving DecidableEq, Repr

/-- The three kinds of fault: wrong content of a well formed part, a text that ends too early,
and a breach of the grammar. -/
inductive Kind
  | content
  | early
  | grammar
  deriving DecidableEq, Repr

def Fault.kind : Fault → Kind
  | .missingField _ | .duplicateField _ | .invalidType .. | .invalidValue .. | .invalidLength ..
  | .unknownVariant .. => .content
  | .endOfValue | .endOfObject | .endOfList | .endOfString => .early
  | _ => .grammar

/-! ## Wording -/

def Found.describe : Found → String
  | .null => "null"
  | .boolean b => s!"boolean `{b}`"
  | .number n@(.real ..) => s!"floating point `{n.render}`"
  | .number n => s!"integer `{n.render}`"
  | .string s => s!"string {Text.quote s}"
  | .sequence => "sequence"
  | .map => "map"

def backquoted (s : String) : String :=
  s!"`{s}`"

def Fault.message : Fault → String
  | .missingField name => s!"missing field `{name}`"
  | .duplicateField name => s!"duplicate field `{name}`"
  | .invalidType found expected => s!"invalid type: {found.describe}, expected {expected}"
  | .invalidValue found expected => s!"invalid value: {found.describe}, expected {expected}"
  | .invalidLength length expected => s!"invalid length {length}, expected {expected}"
  | .unknownVariant name known =>
      s!"unknown variant `{name}`, expected one of " ++ ", ".intercalate (known.map backquoted)
  | .endOfValue => "EOF while parsing a value"
  | .endOfObject => "EOF while parsing an object"
  | .endOfList => "EOF while parsing a list"
  | .endOfString => "EOF while parsing a string"
  | .expectedValue => "expected value"
  | .expectedWord => "expected ident"
  | .expectedColon => "expected `:`"
  | .expectedCommaOrBrace => "expected `,` or `\x7d`"
  | .expectedCommaOrBracket => "expected `,` or `]`"
  | .nameNotString => "key must be a string"
  | .trailingComma => "trailing comma"
  | .trailingCharacters => "trailing characters"
  | .invalidNumber => "invalid number"
  | .numberOutOfRange => "number out of range"
  | .invalidEscape => "invalid escape"
  | .controlCharacter => "control character (\\u0000-\\u001F) found while parsing a string"
  | .endOfHexEscape => "unexpected end of hex escape"
  | .loneSurrogate => "lone leading surrogate in hex escape"
  | .tooDeep => "recursion limit exceeded"

end Json
end ApiCatalog
