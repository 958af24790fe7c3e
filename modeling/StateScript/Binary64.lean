/-!
Double-precision numbers read exactly. A finite double is an integer times a power of two; whole
parts, remainders, saturating conversions and correctly rounded quotients are computed on that
pair in `Nat` and `Int`, so nothing here rounds except where the name says so.
-/

namespace StateScript

/-- A finite double: `± mantissa · 2 ^ exponent`. -/
structure Dyadic where
  negative : Bool
  mantissa : Nat
  exponent : Int
  deriving DecidableEq, Repr

namespace Dyadic

/-- The magnitude as a quotient of naturals. -/
def ratio (d : Dyadic) : Nat × Nat :=
  if 0 ≤ d.exponent then (d.mantissa * Nat.pow 2 d.exponent.toNat, 1)
  else (d.mantissa, Nat.pow 2 (-d.exponent).toNat)

/-- Whether the number has no fractional part. -/
def isWhole (d : Dyadic) : Bool :=
  d.ratio.1 % d.ratio.2 == 0

/-- The magnitude without its fractional part. -/
def wholePart (d : Dyadic) : Nat :=
  d.ratio.1 / d.ratio.2

/-- The number cut toward zero. -/
def truncate (d : Dyadic) : Int :=
  if d.negative then -(d.wholePart : Int) else d.wholePart

/-- The greatest integer that is not above the number. -/
def floor (d : Dyadic) : Int :=
  if d.negative && !d.isWhole then d.truncate - 1 else d.truncate

/-- The least integer that is not below the number. -/
def ceil (d : Dyadic) : Int :=
  if !d.negative && !d.isWhole then d.truncate + 1 else d.truncate

end Dyadic

namespace Binary64

/-- The exact value of a double, absent for the infinities and NaN. -/
def dyadic? (x : Float) : Option Dyadic :=
  let bits := x.toBits.toNat
  let fraction : Nat := bits % Nat.pow 2 52
  let biased : Nat := bits / Nat.pow 2 52 % Nat.pow 2 11
  if biased = 2047 then none
  else if biased = 0 then some ⟨bits / Nat.pow 2 63 == 1, fraction, -1074⟩
  else some ⟨bits / Nat.pow 2 63 == 1, Nat.pow 2 52 + fraction, (biased : Int) - 1075⟩

def infinity (negative : Bool) : Float :=
  Float.ofBits (if negative then 0xFFF0000000000000 else 0x7FF0000000000000)

def nan : Float := Float.ofBits 0x7FF8000000000000

/-- `num / den` rounded down to a multiple of `2 ^ q`, in units of it, with a half going to the
even neighbour. -/
def roundedUnits (num den : Nat) (q : Int) : Nat :=
  let n := if 0 ≤ q then num else num * Nat.pow 2 (-q).toNat
  let d := if 0 ≤ q then den * Nat.pow 2 q.toNat else den
  let units := n / d
  let rest := n % d
  if d < 2 * rest || (2 * rest == d && units % 2 == 1) then units + 1 else units

/-- The double nearest to `± num / den`, ties to even; too large a quotient becomes infinite. -/
def nearest (negative : Bool) (num den : Nat) : Float :=
  let sign := if negative then Nat.pow 2 63 else 0
  if num = 0 then Float.ofBits (UInt64.ofNat sign)
  else
    let estimate : Int := (num.log2 : Int) - den.log2
    let reaches :=
      if 0 ≤ estimate then den * Nat.pow 2 estimate.toNat ≤ num
      else den ≤ num * Nat.pow 2 (-estimate).toNat
    let leading := if reaches then estimate else estimate - 1
    let q := max (leading - 52) (-1074)
    let bits := (q + 1074).toNat * Nat.pow 2 52 + roundedUnits num den q
    if 2047 * Nat.pow 2 52 ≤ bits then infinity negative
    else Float.ofBits (UInt64.ofNat (sign + bits))

def ofNat (n : Nat) : Float := nearest false n 1

def ofInt (i : Int) : Float := nearest (i < 0) i.natAbs 1

/-- The double nearest to `± digits · 10 ^ exponent`. Exponents that lie far outside the range of
doubles are decided by size alone. -/
def ofDecimal (negative : Bool) (digits : Nat) (exponent : Int) : Float :=
  let magnitude : Int := exponent + (digits.log2 / 3 + 1 : Nat)
  if digits = 0 then nearest negative 0 1
  else if 400 < exponent then infinity negative
  else if magnitude < -400 then nearest negative 0 1
  else if 0 ≤ exponent then nearest negative (digits * Nat.pow 10 exponent.toNat) 1
  else nearest negative digits (Nat.pow 10 (-exponent).toNat)

/-- Whether the number is finite and has no fractional part. -/
def isWhole (x : Float) : Bool :=
  (dyadic? x).any Dyadic.isWhole

def isFinite (x : Float) : Bool :=
  (dyadic? x).isSome

/-- The number cut toward zero and then clamped to `0 … max`; NaN counts as zero. -/
def toNatClamped (max : Nat) (x : Float) : Nat :=
  match dyadic? x with
  | some d => if d.negative then 0 else min max d.wholePart
  | none => if 0 < x then max else 0

/-- Applies an integer rounding to a finite number and leaves the others alone. -/
def roundWith (round : Dyadic → Int) (x : Float) : Float :=
  match dyadic? x with
  | some d => ofInt (round d)
  | none => x

/-- The remainder of the division that truncates its quotient, computed exactly; it has the sign
of the dividend. -/
def remainder (x y : Float) : Float :=
  match dyadic? x, dyadic? y with
  | some a, some b =>
    if b.mantissa = 0 then nan
    else
      let e := min a.exponent b.exponent
      let dividend := a.mantissa * Nat.pow 2 (a.exponent - e).toNat
      let rest := dividend % (b.mantissa * Nat.pow 2 (b.exponent - e).toNat)
      if 0 ≤ e then nearest a.negative (rest * Nat.pow 2 e.toNat) 1
      else nearest a.negative rest (Nat.pow 2 (-e).toNat)
  | some _, none => if y.isNaN then nan else x
  | none, _ => nan

end Binary64

end StateScript
