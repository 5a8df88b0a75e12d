/-!
# UTF-8

Decoding of octets. A text is refused at the first octet that rules it out; what was read of the
broken sequence is its longest prefix that some valid sequence starts with.

- `decode` : the text, or where and how the octets fail
- `repair` : the text with U+FFFD in place of every broken sequence
- `encode` : the octets of a text
-/

namespace ApiCatalog

abbrev Octets := List UInt8

namespace Utf8

/-! ## One sequence -/

/-- What the front of a list of octets holds. -/
inductive Front
  | scalar (c : Char) (rest : Octets)
  | broken (length : Nat) (rest : Octets)
  | cutShort
  deriving DecidableEq, Repr

def isContinuation (b : UInt8) : Bool :=
  0x80 ≤ b && b < 0xC0

/-- The range of the second octet after the lead octet `b` of a sequence of three or four:
overlong forms, surrogates and code points above U+10FFFF are ruled out here. -/
def secondRange (b : UInt8) : UInt8 × UInt8 :=
  if b = 0xE0 then (0xA0, 0xBF)
  else if b = 0xED then (0x80, 0x9F)
  else if b = 0xF0 then (0x90, 0xBF)
  else if b = 0xF4 then (0x80, 0x8F)
  else (0x80, 0xBF)

def payload (b : UInt8) : Nat :=
  b.toNat % 64

/-- Reads the sequence at the front; `none` on no octets. -/
def front? : Octets → Option Front
  | [] => none
  | b :: rest =>
      if b < 0x80 then some (.scalar (.ofNat b.toNat) rest)
      else if 0xC2 ≤ b && b < 0xE0 then
        match rest with
        | [] => some .cutShort
        | c :: rest' =>
            if isContinuation c then some (.scalar (.ofNat (b.toNat % 32 * 64 + payload c)) rest')
            else some (.broken 1 rest)
      else if 0xE0 ≤ b && b < 0xF0 then
        match rest with
        | [] => some .cutShort
        | c :: rest' =>
            if (secondRange b).1 ≤ c && c ≤ (secondRange b).2 then
              match rest' with
              | [] => some .cutShort
              | d :: rest'' =>
                  if isContinuation d then
                    some (.scalar
                      (.ofNat (b.toNat % 16 * 4096 + payload c * 64 + payload d)) rest'')
                  else some (.broken 2 rest')
            else some (.broken 1 rest)
      else if 0xF0 ≤ b && b < 0xF5 then
        match rest with
        | [] => some .cutShort
        | c :: rest' =>
            if (secondRange b).1 ≤ c && c ≤ (secondRange b).2 then
              match rest' with
              | [] => some .cutShort
              | d :: rest'' =>
                  if isContinuation d then
                    match rest'' with
                    | [] => some .cutShort
                    | e :: rest''' =>
                        if isContinuation e then
                          some (.scalar (.ofNat (b.toNat % 8 * 262144 + payload c * 4096
                            + payload d * 64 + payload e)) rest''')
                        else some (.broken 3 rest'')
                  else some (.broken 2 rest')
            else some (.broken 1 rest)
      else some (.broken 1 rest)

/-! ## Whole texts -/

/-- Why octets are no text: a sequence that cannot be completed, with its length, or one that the
end cuts short; each with the index of its first octet. -/
inductive Fault
  | invalid (length index : Nat)
  | incomplete (index : Nat)
  deriving DecidableEq, Repr

def Fault.message : Fault → String
  | .invalid length index => s!"invalid utf-8 sequence of {length} bytes from index {index}"
  | .incomplete index => s!"incomplete utf-8 byte sequence from index {index}"

/-- Reads at most `fuel` sequences, the first of them at `index`. -/
def decodeFrom : Nat → Nat → Octets → Except Fault (List Char)
  | 0, _, _ => .ok []
  | fuel + 1, index, bytes =>
      match front? bytes with
      | none => .ok []
      | some (.scalar c rest) => do
          let tail ← decodeFrom fuel (index + c.utf8Size) rest
          return c :: tail
      | some (.broken length _) => .error (.invalid length index)
      | some .cutShort => .error (.incomplete index)

def decode (bytes : Octets) : Except Fault String := do
  let chars ← decodeFrom bytes.length 0 bytes
  return .ofList chars

def repairFrom : Nat → Octets → List Char
  | 0, _ => []
  | fuel + 1, bytes =>
      match front? bytes with
      | none => []
      | some (.scalar c rest) => c :: repairFrom fuel rest
      | some (.broken _ rest) => '\uFFFD' :: repairFrom fuel rest
      | some .cutShort => ['\uFFFD']

/-- Reads any octets, with U+FFFD for each broken sequence. -/
def repair (bytes : Octets) : String :=
  .ofList (repairFrom bytes.length bytes)

def encode (s : String) : Octets :=
  s.toUTF8.toList

end Utf8
end ApiCatalog
