import ApiCatalog.Json.Value

/-!
# Records

Reading an outline as something known: a string, a list, or a record with named fields. Outlines
are read in the order of the text, so the first fault in the text is the one reported; what the
text holds beyond it does not matter.

A record is described once, by its `Fields`. It is read from an object, in any order and with
foreign members skipped, or from an array, in the order of the fields.
-/

namespace ApiCatalog
namespace Json

/-! ## Simple readers -/

/-- The fault of an outline that holds something else than `expected`. A scalar is read to its
end before it is refused, a list or an object is refused at once. -/
def Outline.mismatch (o : Outline) (expected : String) : Fault :=
  let refuse (found : Except Fault Found) : Fault :=
    match found with
    | .ok f => .invalidType f expected
    | .error e => e
  match o with
  | .absent => .endOfValue
  | .foreign => .expectedValue
  | .cutWord atEnd => if atEnd then .endOfValue else .expectedWord
  | .cutNumeral atEnd => if atEnd then .endOfValue else .invalidNumber
  | .null => .invalidType .null expected
  | .boolean b => .invalidType (.boolean b) expected
  | .numeral n => refuse (n.value.map .number)
  | .string l => refuse (l.text.map .string)
  | .array _ => .invalidType .sequence expected
  | .object _ => .invalidType .map expected

def readString : Outline → Except Fault String
  | .string l => l.text
  | o => .error (o.mismatch "a string")

def readBool : Outline → Except Fault Bool
  | .boolean b => .ok b
  | o => .error (o.mismatch "a boolean")

/-- A whole number of sixteen bits. -/
def readWord : Outline → Except Fault UInt16
  | .numeral n => do
      match ← n.value with
      | .natural k =>
          if k < UInt16.size then .ok (.ofNat k)
          else .error (.invalidValue (.number (.natural k)) "u16")
      | .negative k => .error (.invalidValue (.number (.negative k)) "u16")
      | x => .error (.invalidType (.number x) "u16")
  | o => .error (o.mismatch "u16")

def Items.readAll {α : Type} (read : Outline → Except Fault α) : Items → Except Fault (List α)
  | .close => .ok []
  | .stop s => .error s.inArray
  | .item head tail => do
      let x ← read head
      return x :: (← tail.readAll read)

def readList {α : Type} (read : Outline → Except Fault α) : Outline → Except Fault (List α)
  | .array items => items.readAll read
  | o => .error (o.mismatch "a sequence")

/-- Reads `null` as nothing. -/
def readOptional {α : Type} (read : Outline → Except Fault α) :
    Outline → Except Fault (Option α)
  | .null => .ok none
  | o => do return some (← read o)

/-! ## Fields -/

/-- A named field, and the value that stands in for it when it is absent. -/
structure FieldReader (α : Type) where
  name : String
  read : Outline → Except Fault α
  absent : Option α

/-- The fields of a record in order. `σ` is the type of a record in progress, in which every
field may still be open, and `ρ` that of a complete one. -/
inductive Fields : Type → Type → Type 1
  | nil : Fields Unit Unit
  | cons {α σ ρ : Type} (field : FieldReader α) (rest : Fields σ ρ) : Fields (Option α × σ) (α × ρ)

namespace Fields

def size : {σ ρ : Type} → Fields σ ρ → Nat
  | _, _, .nil => 0
  | _, _, .cons _ rest => rest.size + 1

def names : {σ ρ : Type} → Fields σ ρ → List String
  | _, _, .nil => []
  | _, _, .cons field rest => field.name :: rest.names

/-- The record in progress before anything was read. -/
def start : {σ ρ : Type} → Fields σ ρ → σ
  | _, _, .nil => ()
  | _, _, .cons _ rest => (none, rest.start)

/-- Whether `name` is a field that was read already. -/
def isFilled : {σ ρ : Type} → Fields σ ρ → String → σ → Bool
  | _, _, .nil, _, _ => false
  | _, _, .cons field rest, name, (slot, later) =>
      if field.name = name then slot.isSome else rest.isFilled name later

/-- Reads the value of a member. A name that is no field has its value skipped. -/
def put : {σ ρ : Type} → Fields σ ρ → String → Outline → σ → Except Fault σ
  | _, _, .nil, _, value, s => do
      value.skip
      return s
  | _, _, .cons field rest, name, value, (slot, later) =>
      if field.name = name then do
        let x ← field.read value
        return (some x, later)
      else do
        let later ← rest.put name value later
        return (slot, later)

/-- Closes a record: absent fields get their stand-in, and the first that has none is missing. -/
def finish : {σ ρ : Type} → Fields σ ρ → σ → Except Fault ρ
  | _, _, .nil, _ => .ok ()
  | _, _, .cons field rest, (slot, later) =>
      match slot.or field.absent with
      | some x => do return (x, ← rest.finish later)
      | none => .error (.missingField field.name)

/-- Reads the members of an object into a record in progress. A repeated field is refused before
anything after its name is looked at. -/
def readMembers {σ ρ : Type} (fields : Fields σ ρ) : Members → σ → Except Fault σ
  | .close, s => .ok s
  | .stop w, _ => .error w.inObject
  | .unnamed, _ => .error .nameNotString
  | .noColon name atEnd, s => do
      let k ← name.text
      .error (if fields.isFilled k s then .duplicateField k else colonFault atEnd)
  | .member name value tail, s => do
      let k ← name.text
      if fields.isFilled k s then .error (.duplicateField k)
      else
        let s ← fields.put k value s
        fields.readMembers tail s

/-- Reads fields from the elements of an array, the first of them being element number `index`.
When the elements run out, the fields that are left need stand-ins. -/
def readItems (expected : String) :
    {σ ρ : Type} → Fields σ ρ → Nat → Items → Except Fault (ρ × Items)
  | _, _, .nil, _, items => .ok ((), items)
  | _, _, .cons field rest, index, .item head tail => do
      let x ← field.read head
      let (later, left) ← rest.readItems expected (index + 1) tail
      return ((x, later), left)
  | _, _, .cons field rest, index, .close =>
      match field.absent with
      | some x => do
          let (later, left) ← rest.readItems expected (index + 1) .close
          return ((x, later), left)
      | none => .error (.invalidLength index expected)
  | _, _, .cons _ _, _, .stop s => .error s.inArray

end Fields

/-- An array that stands for a record has to close after its last field. -/
def Items.finish : Items → Except Fault Unit
  | .close => .ok ()
  | .stop .ended => .error .endOfList
  | .stop .commaThenClose => .error .trailingComma
  | _ => .error .trailingCharacters

/-- How the size of a record is told. -/
def elementCount (n : Nat) : String :=
  if n = 1 then "1 element" else s!"{n} elements"

/-- Reads a record whose type is called `title`. -/
def Fields.read {σ ρ : Type} (title : String) (fields : Fields σ ρ) : Outline → Except Fault ρ
  | .object members => do fields.finish (← fields.readMembers members fields.start)
  | .array items => do
      let (record, left) ←
        fields.readItems s!"struct {title} with {elementCount fields.size}" 0 items
      left.finish
      return record
  | o => .error (o.mismatch s!"struct {title}")

/-! ## Whole texts -/

/-- Reads a text that holds one value and white space around it. -/
def decode {α : Type} (read : Outline → Except Fault α) (text : String) : Except Fault α := do
  let (outline, more) := scan text.toList
  let x ← read outline
  if more then .error .trailingCharacters else return x

/-- Keeps any value. -/
def keepValue : Outline → Except Fault Value :=
  Outline.keep depthLimit

end Json
end ApiCatalog
