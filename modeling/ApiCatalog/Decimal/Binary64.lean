/-!
# Binary numbers of 64 bits

The magnitudes of double precision arithmetic, held exactly as `mantissa * 2 ^ exponent`, with
rounding of a fraction to the nearest of them. Every operation is one exact fraction followed by
one rounding, so a result can be reasoned about in natural numbers alone.
-/

namespace ApiCatalog

/-- A finite magnitude `mantissa * 2 ^ exponent`; as produced by `ofFraction`, the mantissa is
below `2 ^ 53` and, unless the exponent is the least one, not below `2 ^ 52`. -/
structure Binary64 where
  mantissa : Nat
  exponent : Int
  deriving DecidableEq, Repr

namespace Binary64

/-! ## Range -/

def leastExponent : Int := -1074
def greatestExponent : Int := 971

def zero : Binary64 := ⟨0, leastExponent⟩

def isZero (x : Binary64) : Bool :=
  x.mantissa == 0

/-! ## Fractions -/

/-- The value as numerator and denominator. -/
def fraction (x : Binary64) : Nat × Nat :=
  (x.mantissa * Nat.pow 2 x.exponent.toNat, Nat.pow 2 (-x.exponent).toNat)

/-- The quotient rounded to the nearest natural number, halves to the even one. -/
def divideEven (num den : Nat) : Nat :=
  let quotient := num / den
  let twice := 2 * (num % den)
  if den < twice || (twice == den && quotient % 2 == 1) then quotient + 1 else quotient

/-- The exponent at which the mantissa of `num / den` has 53 bits, or the least exponent. -/
def exponentOf (num den : Nat) : Int :=
  let guess : Int := Nat.log2 num - Nat.log2 den
  let reaches := den * Nat.pow 2 guess.toNat ≤ num * Nat.pow 2 (-guess).toNat
  max (if reaches then guess - 52 else guess - 53) leastExponent

/-- The number nearest to `num / den`, ties to an even mantissa; `none` above the range. -/
def ofFraction (num den : Nat) : Option Binary64 :=
  if num = 0 then some zero
  else
    let e := exponentOf num den
    let m := divideEven (num * Nat.pow 2 (-e).toNat) (den * Nat.pow 2 e.toNat)
    let x : Binary64 := if m = Nat.pow 2 53 then ⟨Nat.pow 2 52, e + 1⟩ else ⟨m, e⟩
    if greatestExponent < x.exponent then none else some x

/-! ## Arithmetic -/

def ofNat (n : Nat) : Option Binary64 :=
  ofFraction n 1

/-- Product, rounded once. -/
def times (x y : Binary64) : Option Binary64 :=
  ofFraction (x.fraction.1 * y.fraction.1) (x.fraction.2 * y.fraction.2)

/-- Quotient, rounded once. -/
def dividedBy (x y : Binary64) : Option Binary64 :=
  ofFraction (x.fraction.1 * y.fraction.2) (x.fraction.2 * y.fraction.1)

end Binary64
end ApiCatalog
