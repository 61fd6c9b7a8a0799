import ProximityLab.Number.Binary64

/-!
# The shortest decimal of a double

`Binary64.shortest` finds the decimal with the fewest digits that reads back as a given finite
number, and among those the nearest one. A finite number is the nearest word of a whole interval
of quotients (`Interval`, its ends included when the significand is even). For one digit, two
digits and so on the two neighbours of the number on that decimal grid are tried; the first grid
with a neighbour in the interval wins.
-/

namespace ProximityLab

/-- A positive decimal `digits * 10 ^ power`. -/
structure Decimal where
  digits : Nat
  power : Int
  deriving DecidableEq, Repr

namespace Decimal

/-- Whether `digits * 10 ^ power` is at most `num / den`. -/
def le (d : Decimal) (num den : Nat) : Bool :=
  if 0 ≤ d.power then d.digits * Nat.pow 10 d.power.toNat * den ≤ num
  else d.digits * den ≤ num * Nat.pow 10 (-d.power).toNat

/-- Whether `num / den` is at most `digits * 10 ^ power`. -/
def ge (d : Decimal) (num den : Nat) : Bool :=
  if 0 ≤ d.power then num ≤ d.digits * Nat.pow 10 d.power.toNat * den
  else num * Nat.pow 10 (-d.power).toNat ≤ d.digits * den

/-- The distance to `num / den`, in units that depend on `power`, `num` and `den` only. -/
def distance (d : Decimal) (num den : Nat) : Nat :=
  let (a, b) :=
    if 0 ≤ d.power then (d.digits * Nat.pow 10 d.power.toNat * den, num)
    else (d.digits * den, num * Nat.pow 10 (-d.power).toNat)
  if a ≤ b then b - a else a - b

/-- Drops the zeros at the end of the digits. The fuel is the count of digits. -/
def trimZeros : Nat → Decimal → Decimal
  | 0, d => d
  | n + 1, d =>
    if d.digits % 10 = 0 ∧ d.digits ≠ 0 then trimZeros n ⟨d.digits / 10, d.power + 1⟩ else d

end Decimal

namespace Binary64

/-- The quotients that round to one number: those between two ends with a common denominator. -/
structure Interval where
  low : Nat
  high : Nat
  den : Nat
  closed : Bool

/-- The quotients that round to a finite number: half a step down and half a step up, where the
step below a power of two is half as wide. -/
def roundingInterval (x : Binary64) : Interval :=
  let m := x.significand
  let below := if x.fraction = 0 ∧ 1 < x.exponentBits then 1 else 2
  let e := x.exponent - 2
  let up := Nat.pow 2 e.toNat
  { low := (4 * m - below) * up
    high := (4 * m + 2) * up
    den := Nat.pow 2 (-e).toNat
    closed := m % 2 == 0 }

/-- Whether a decimal lies in the interval. -/
def Interval.contains (i : Interval) (d : Decimal) : Bool :=
  if i.closed then d.ge i.low i.den && d.le i.high i.den
  else !d.le i.low i.den && !d.ge i.high i.den

/-- The `top` with `10 ^ (top - 1) ≤ num / den < 10 ^ top`, for a positive quotient. -/
def decimalTop (num den : Nat) : Int :=
  if den ≤ num then decimalLength (num / den)
  else
    let t := decimalLength (den / num)
    if num * Nat.pow 10 (t - 1) = den then 2 - t else 1 - t

/-- The better neighbour of `num / den` in multiples of `10 ^ power`, if one lies in the interval:
the nearer one, or of two equally near ones the even one. -/
def neighbour? (i : Interval) (num den : Nat) (power : Int) : Option Decimal :=
  let floor :=
    if 0 ≤ power then num / (den * Nat.pow 10 power.toNat)
    else num * Nat.pow 10 (-power).toNat / den
  let lower : Decimal := ⟨floor, power⟩
  let upper : Decimal := ⟨floor + 1, power⟩
  match i.contains lower, i.contains upper with
  | false, false => none
  | true, false => some lower
  | false, true => some upper
  | true, true =>
    let a := lower.distance num den
    let b := upper.distance num den
    if a < b then some lower
    else if b < a then some upper
    else if floor % 2 = 0 then some lower else some upper

/-- The shortest decimal that reads back as the magnitude of a finite number other than zero.
Seventeen digits always suffice. -/
def shortest (x : Binary64) : Decimal :=
  let (num, den) := x.ratio
  let interval := x.roundingInterval
  let top := decimalTop num den
  let found := (List.range 17).findSome? fun n => neighbour? interval num den (top - (n + 1 : Nat))
  match found with
  | some d => d.trimZeros 20
  | none => ⟨0, 0⟩

end Binary64

end ProximityLab
