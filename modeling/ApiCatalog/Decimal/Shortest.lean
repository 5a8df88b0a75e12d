import ApiCatalog.Decimal.Binary64

/-!
# Shortest decimals

The fewest decimal digits that read back as a given binary number, and their layout.

- `Decimal.shortest` : of the decimals that round to the number, one with the fewest digits, and
  of those the nearest
- `Decimal.render`   : positional notation for magnitudes from `1e-5` to below `1e16`, always with
  a point; scientific notation outside
-/

namespace ApiCatalog

/-- The decimal `digits * 10 ^ scale`. -/
structure Decimal where
  digits : Nat
  scale : Int
  deriving DecidableEq, Repr

namespace Decimal

/-! ## Finding the digits -/

/-- The interval of values that round to a number: its ends as numerators over `den`, and whether
the ends themselves belong to it. -/
structure Interval where
  low : Nat
  value : Nat
  high : Nat
  den : Nat
  closed : Bool

/-- Halfway to both neighbours; the gap below the least mantissa of a range is half as wide. -/
def intervalOf (x : Binary64) : Interval :=
  let narrow := x.mantissa = Nat.pow 2 52 ∧ Binary64.leastExponent < x.exponent
  let up := Nat.pow 2 x.exponent.toNat
  { low := (4 * x.mantissa - (if narrow then 1 else 2)) * up
    value := 4 * x.mantissa * up
    high := (4 * x.mantissa + 2) * up
    den := 4 * Nat.pow 2 (-x.exponent).toNat
    closed := x.mantissa % 2 = 0 }

/-- The greatest `p` with `10 ^ p ≤ num / den`, for a positive fraction. -/
def leadingPower (num den : Nat) : Int :=
  if den ≤ num then ((Nat.toDigits 10 (num / den)).length : Int) - 1
  else
    let j := (Nat.toDigits 10 (den / num)).length
    if den ≤ num * Nat.pow 10 (j - 1) then 1 - (j : Int) else -(j : Int)

/-- Whether `n * 10 ^ scale` lies in the interval. -/
def Interval.has (i : Interval) (scale : Int) (n : Nat) : Bool :=
  let v := n * Nat.pow 10 scale.toNat * i.den
  let unit := Nat.pow 10 (-scale).toNat
  if i.closed then i.low * unit ≤ v && v ≤ i.high * unit
  else i.low * unit < v && v < i.high * unit

/-- The better of the two points of the grid `10 ^ scale` around the value, if one is in the
interval. -/
def Interval.onGrid (i : Interval) (scale : Int) : Option Nat :=
  let target := i.value * Nat.pow 10 (-scale).toNat
  let step := i.den * Nat.pow 10 scale.toNat
  let below := target / step
  let nearest := Binary64.divideEven target step
  let other := if nearest = below then below + 1 else below
  if i.has scale nearest then some nearest
  else if i.has scale other then some other
  else none

/-- Tries grids of one digit more each time. -/
def Interval.search (i : Interval) : Nat → Int → Option Decimal
  | 0, _ => none
  | fuel + 1, scale =>
      match i.onGrid scale with
      | some n => some ⟨n, scale⟩
      | none => i.search fuel (scale - 1)

/-- Moves zeros at the end of the digits into the scale. -/
def stripZeros : Nat → Decimal → Decimal
  | 0, d => d
  | fuel + 1, d =>
      if d.digits ≠ 0 ∧ d.digits % 10 = 0 then stripZeros fuel ⟨d.digits / 10, d.scale + 1⟩ else d

/-- The shortest decimal of a positive number: seventeen digits always suffice. -/
def shortest (x : Binary64) : Decimal :=
  let i := intervalOf x
  match i.search 17 (leadingPower i.value i.den) with
  | some d => stripZeros 20 d
  | none => ⟨i.value / i.den, 0⟩

/-! ## Layout -/

/-- The first and the last position of the leading digit that are written positionally. -/
def positional : Int × Int := (-5, 15)

def zeros (n : Nat) : List Char :=
  List.replicate n '0'

/-- Writes the decimal, always with a point or an exponent. -/
def render (d : Decimal) : List Char :=
  let ds := Nat.toDigits 10 d.digits
  let lead : Int := ds.length + d.scale - 1
  if positional.1 ≤ lead ∧ lead ≤ positional.2 then
    if 0 ≤ d.scale then ds ++ zeros d.scale.toNat ++ ['.', '0']
    else if 0 ≤ lead then
      ds.take (lead.toNat + 1) ++ '.' :: ds.drop (lead.toNat + 1)
    else ['0', '.'] ++ zeros (-lead - 1).toNat ++ ds
  else
    let point := match ds with
      | d :: rest@(_ :: _) => d :: '.' :: rest
      | _ => ds
    let sign := if lead < 0 then '-' else '+'
    point ++ 'e' :: sign :: Nat.toDigits 10 lead.natAbs

end Decimal

/-- Writes a signed number of 64 bits with the fewest digits that read back. -/
def Binary64.render (negative : Bool) (x : Binary64) : String :=
  let sign := if negative then ['-'] else []
  let body := if x.isZero then ['0', '.', '0'] else (Decimal.shortest x).render
  .ofList (sign ++ body)

end ApiCatalog
