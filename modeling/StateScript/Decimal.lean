import StateScript.Binary64

/-!
Decimal text of doubles. `Decimal.shortest` finds the fewest digits that read back as the same
double, `Decimal.fixed` rounds the exact value to a number of places, and a `Decimal` is written
positionally or with an exponent.
-/

namespace StateScript

/-- The positive number `digits · 10 ^ exponent`. -/
structure Decimal where
  digits : Nat
  exponent : Int
  deriving DecidableEq, Repr

namespace Decimal

/-- Which of two equally near decimals is taken. -/
inductive Tie where
  | toEven
  | up
  deriving DecidableEq, Repr

/-- `digits · 10 ^ exponent` with the trailing zeros of `digits` moved into the exponent. -/
def trimmed : Nat → Nat → Int → Decimal
  | 0, digits, exponent => ⟨digits, exponent⟩
  | fuel + 1, digits, exponent =>
    if digits % 10 = 0 ∧ digits ≠ 0 then trimmed fuel (digits / 10) (exponent + 1)
    else ⟨digits, exponent⟩

/-- The interval of reals that round to a double, scaled by a common denominator. Its ends count
as inside when `closed` holds. -/
structure Rounding where
  low : Nat
  value : Nat
  high : Nat
  den : Nat
  closed : Bool

/-- The rounding interval of a nonzero magnitude. Below a power of two the neighbour is half as
far away as above it. -/
def Rounding.ofDyadic (d : Dyadic) : Rounding :=
  let gap := if d.mantissa = Nat.pow 2 52 ∧ -1074 < d.exponent then 1 else 2
  let e := d.exponent - 2
  let scale := Nat.pow 2 e.toNat
  { low := (4 * d.mantissa - gap) * scale
    value := 4 * d.mantissa * scale
    high := (4 * d.mantissa + 2) * scale
    den := Nat.pow 2 (-e).toNat
    closed := d.mantissa % 2 == 0 }

/-- The multiple of `10 ^ unit` nearest to the value among those that round to the double. -/
def Rounding.onGrid (r : Rounding) (tie : Tie) (unit : Int) : Option Nat :=
  let num := Nat.pow 10 (-unit).toNat
  let den := r.den * Nat.pow 10 unit.toNat
  let below := r.value * num / den
  let lowFits := if r.closed then r.low * num ≤ below * den else r.low * num < below * den
  let highFits :=
    if r.closed then (below + 1) * den ≤ r.high * num else (below + 1) * den < r.high * num
  let rest := r.value * num - below * den
  if lowFits && highFits then
    if 2 * rest < den then some below
    else if den < 2 * rest then some (below + 1)
    else match tie with
      | .toEven => some (if below % 2 = 0 then below else below + 1)
      | .up => some (below + 1)
  else if lowFits then some below
  else if highFits then some (below + 1)
  else none

/-- The least `k`, of two candidates, with the value below `10 ^ k`. -/
def Rounding.order (r : Rounding) (d : Dyadic) : Int :=
  let guess := (((d.mantissa.log2 : Int) + d.exponent) * 30103).fdiv 100000 + 1
  let below (k : Int) : Bool := r.value * Nat.pow 10 (-k).toNat < r.den * Nat.pow 10 k.toNat
  if !below guess then guess + 1 else if below (guess - 1) then guess - 1 else guess

/-- Tries 1, 2, … digits; seventeen always suffice. -/
def search (r : Rounding) (tie : Tie) (order : Int) : Nat → Nat → Decimal
  | 0, count => ⟨0, order - count⟩
  | fuel + 1, count =>
    match r.onGrid tie (order - count) with
    | some digits => trimmed 20 digits (order - count)
    | none => search r tie order fuel (count + 1)

/-- The shortest decimal that reads back as the magnitude, nearest to it among those. -/
def shortest (tie : Tie) (d : Dyadic) : Decimal :=
  let r := Rounding.ofDyadic d
  search r tie (r.order d) 17 1

def digitChar (n : Nat) : Char := Char.ofNat (48 + n)

/-- The base ten numeral of a natural, least digit last. -/
def numeral (n : Nat) : List Char := Nat.toDigits 10 n

def zeros (n : Nat) : List Char := List.replicate n '0'

/-- The decimal written without an exponent and without a trailing point. -/
def positional (d : Decimal) : List Char :=
  let ds := numeral d.digits
  let point : Int := ds.length + d.exponent
  if 0 ≤ d.exponent then ds ++ zeros d.exponent.toNat
  else if 0 < point then ds.take point.toNat ++ '.' :: ds.drop point.toNat
  else '0' :: '.' :: zeros (-point).toNat ++ ds

/-- The decimal written with one digit before the point and a signed exponent. -/
def scientific (d : Decimal) : List Char :=
  let ds := numeral d.digits
  let e : Int := ds.length + d.exponent - 1
  let fraction := match ds.drop 1 with
    | [] => []
    | rest => '.' :: rest
  ds.take 1 ++ fraction ++ 'e' :: (if e < 0 then '-' else '+') :: numeral e.natAbs

/-- The magnitude rounded to `places` digits after the point, a half going to the even digit. -/
def fixed (places : Nat) (d : Dyadic) : List Char :=
  let (num, den) := d.ratio
  let units := Binary64.roundedUnits (num * Nat.pow 10 places) den 0
  let whole := numeral (units / Nat.pow 10 places)
  if places = 0 then whole
  else
    let fraction := numeral (units % Nat.pow 10 places)
    whole ++ '.' :: zeros (places - fraction.length) ++ fraction

end Decimal

end StateScript
