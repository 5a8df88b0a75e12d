import ApiCatalog.Json.Fault

/-!
# Numerals

A numeral is kept as it was written and valued on demand: skipped text is never valued, so only a
numeral that somebody asks for can be out of range.

The value is found in two roundings. The digits are gathered into a whole number of 64 bits;
those beyond it only count as powers of ten. That number is rounded, then multiplied or divided by
a rounded power of ten.
-/

namespace ApiCatalog
namespace Json

/-- A decimal exponent as written. -/
structure Exponent where
  minus : Bool
  digits : List Nat
  deriving DecidableEq, Repr

/-- A well formed numeral; all digits are below ten, and the lists of digits are not empty. -/
structure Numeral where
  minus : Bool
  whole : List Nat
  decimals : Option (List Nat)
  exponent : Option Exponent
  deriving DecidableEq, Repr

namespace Numeral

/-! ## Gathering digits -/

def wordLimit : Nat := Nat.pow 2 64 - 1

def exponentLimit : Nat := Nat.pow 2 31 - 1

/-- Appends digits while the number fits 64 bits; returns it with the digits that did not. -/
def gather : Nat → List Nat → Nat × List Nat
  | acc, [] => (acc, [])
  | acc, d :: ds => if acc * 10 + d ≤ wordLimit then gather (acc * 10 + d) ds else (acc, d :: ds)

/-- The value of exponent digits, or `none` beyond 31 bits. -/
def exponentValue : Nat → List Nat → Option Nat
  | acc, [] => some acc
  | acc, d :: ds =>
      if acc * 10 + d ≤ exponentLimit then exponentValue (acc * 10 + d) ds else none

/-! ## Scaling -/

/-- The greatest power of ten that has a rounded value of its own. -/
def greatestPower : Nat := 308

def powerOfTen (n : Nat) : Option Binary64 :=
  Binary64.ofNat (Nat.pow 10 n)

def scaleUp (x : Binary64) (n : Nat) : Option Binary64 :=
  if n ≤ greatestPower then do x.times (← powerOfTen n)
  else if x.isZero then some x
  else none

/-- Divides by the greatest power as often as told, or until nothing is left. -/
def divideSteps : Nat → Binary64 → Option Binary64
  | 0, x => some x
  | steps + 1, x =>
      if x.isZero then some x
      else do divideSteps steps (← x.dividedBy (← powerOfTen greatestPower))

/-- Division by `10 ^ n`: whole steps of the greatest power first, then what remains of `n`. -/
def scaleDown (x : Binary64) (n : Nat) : Option Binary64 := do
  let steps := (n - 1) / greatestPower
  let y ← divideSteps steps x
  if y.isZero then some y else y.dividedBy (← powerOfTen (n - steps * greatestPower))

/-- `significand * 10 ^ power`, if it is in range. -/
def scale (significand : Nat) (power : Int) : Option Binary64 := do
  let x ← Binary64.ofNat significand
  if 0 ≤ power then scaleUp x power.toNat else scaleDown x (-power).toNat

/-! ## Value -/

/-- The magnitude of a numeral that is no whole number of 64 bits; `none` when it is out of
range. -/
def magnitude (n : Numeral) : Option Binary64 :=
  let (whole, dropped) := gather 0 n.whole
  let decimals := n.decimals.getD []
  let (significand, ignored) := gather whole decimals
  let power : Int := (dropped.length : Int) - ((decimals.length - ignored.length : Nat) : Int)
  match n.exponent with
  | none => scale significand power
  | some e =>
      match exponentValue 0 e.digits with
      | some k => scale significand (if e.minus then power - k else power + k)
      | none => if significand ≠ 0 && !e.minus then none else some Binary64.zero

/-- The number that a numeral denotes. A fraction, an exponent, a minus before zero and a size
beyond 64 bits make it a binary approximation. -/
def value (n : Numeral) : Except Fault Number :=
  let (whole, dropped) := gather 0 n.whole
  if n.decimals.isNone && n.exponent.isNone && dropped.isEmpty
      && (!n.minus || (0 < whole && whole ≤ Nat.pow 2 63)) then
    .ok (if n.minus then .negative whole else .natural whole)
  else
    match n.magnitude with
    | some m => .ok (.real n.minus m)
    | none => .error .numberOutOfRange

end Numeral
end Json
end ApiCatalog
