/-!
# Double precision numbers

`Binary64` is a 64-bit word read as a sign, an eleven-bit exponent and a 52-bit fraction. Every
operation here works on exact natural numbers and rounds once, at the end:

* `roundRatio` is the one rounding step: the nearest word to a quotient, ties to the even word.
* `ofNat`, `ofInt`, `ofDecimal`, `mul` and `div` are quotients handed to `roundRatio`.
* `scaled` is the exact value of a finite word in whole units, rounded to the even neighbour.

Equality of `Binary64` is equality of words, so it tells `0` from `-0`.
-/

namespace ProximityLab

/-- A double precision number, kept as its word. -/
structure Binary64 where
  bits : BitVec 64
  deriving DecidableEq, Inhabited

/-- Rounds a quotient to the nearest whole number, a half to the even neighbour. -/
def roundDiv (num den : Nat) : Nat :=
  let q := num / den
  let r := num % den
  if 2 * r < den then q
  else if den < 2 * r then q + 1
  else if q % 2 = 0 then q else q + 1

namespace Binary64

/-- The sign bit is set. -/
def negative (x : Binary64) : Bool := x.bits.msb

/-- The eleven exponent bits. -/
def exponentBits (x : Binary64) : Nat := x.bits.toNat / 0x10000000000000 % 0x800

/-- The 52 fraction bits. -/
def fraction (x : Binary64) : Nat := x.bits.toNat % 0x10000000000000

/-- The word without its sign. -/
def magnitude (x : Binary64) : Nat := x.bits.toNat % 0x8000000000000000

/-- The number is neither infinite nor NaN. -/
def isFinite (x : Binary64) : Bool := x.exponentBits != 2047

/-- The word stands for no number. -/
def isNaN (x : Binary64) : Bool := x.exponentBits == 2047 && x.fraction != 0

/-- A finite number is `significand * 2 ^ exponent`, up to its sign. -/
def significand (x : Binary64) : Nat :=
  if x.exponentBits = 0 then x.fraction else 0x10000000000000 + x.fraction

/-- The power of two that scales the significand of a finite number. -/
def exponent (x : Binary64) : Int :=
  if x.exponentBits = 0 then -1074 else (x.exponentBits : Int) - 1075

/-- The word with the given sign and magnitude. -/
def ofMagnitude (negative : Bool) (magnitude : Nat) : Binary64 :=
  ⟨BitVec.ofNat 64 (if negative then 0x8000000000000000 + magnitude else magnitude)⟩

/-- The magnitude of the infinite numbers. -/
def infiniteMagnitude : Nat := 2047 * 0x10000000000000

def zero : Binary64 := ofMagnitude false 0
def infinity : Binary64 := ofMagnitude false infiniteMagnitude
def nan : Binary64 := ofMagnitude false (infiniteMagnitude + 0x8000000000000)

/-- The same number with the other sign. -/
def neg (x : Binary64) : Binary64 := ofMagnitude (!x.negative) x.magnitude

/-- The power of two in whose multiples a quotient near `num / den` is counted: 53 bits of it, but
never below the least power there is. -/
def gridExponent (num den : Nat) : Int :=
  let estimate : Int := (num.log2 : Int) - den.log2
  let reached : Bool :=
    if 0 ≤ estimate then den * Nat.pow 2 estimate.toNat ≤ num
    else den ≤ num * Nat.pow 2 (-estimate).toNat
  max (-1074) ((if reached then estimate else estimate - 1) - 52)

/-- The nearest number to `num / den`, a half going to the even word; what is too large becomes
infinite. Counting in multiples of the grid power makes the word a sum, so a carry out of the
fraction bits moves to the next power by itself. -/
def roundRatio (negative : Bool) (num den : Nat) : Binary64 :=
  if num = 0 then ofMagnitude negative 0
  else
    let e := gridExponent num den
    let q := if 0 ≤ e then roundDiv num (den * Nat.pow 2 e.toNat)
      else roundDiv (num * Nat.pow 2 (-e).toNat) den
    ofMagnitude negative (min ((e + 1074).toNat * 0x10000000000000 + q) infiniteMagnitude)

/-- The nearest number to `m * 2 ^ e`. -/
def roundScaled (negative : Bool) (m : Nat) (e : Int) : Binary64 :=
  if 0 ≤ e then roundRatio negative (m * Nat.pow 2 e.toNat) 1
  else roundRatio negative m (Nat.pow 2 (-e).toNat)

/-- The nearest number to a natural number. -/
def ofNat (n : Nat) : Binary64 := roundRatio false n 1

/-- The nearest number to an integer; zero is the positive zero. -/
def ofInt (i : Int) : Binary64 := roundRatio (i < 0) i.natAbs 1

/-- The count of decimal digits of `n`, at least one. -/
def decimalLength (n : Nat) : Nat := (Nat.toDigits 10 n).length

/-- The nearest number to `digits * 10 ^ power`. The two early answers keep the powers of ten that
are multiplied out within the range of the format. -/
def ofDecimal (negative : Bool) (digits : Nat) (power : Int) : Binary64 :=
  if digits = 0 then ofMagnitude negative 0
  else
    let top := (decimalLength digits : Int) + power
    if 310 < top then ofMagnitude negative infiniteMagnitude
    else if top < -330 then ofMagnitude negative 0
    else if 0 ≤ power then roundRatio negative (digits * Nat.pow 10 power.toNat) 1
    else roundRatio negative digits (Nat.pow 10 (-power).toNat)

/-- The product of two finite numbers. -/
def mul (x y : Binary64) : Binary64 :=
  roundScaled (x.negative != y.negative) (x.significand * y.significand) (x.exponent + y.exponent)

/-- The quotient of two finite numbers, the second not zero. -/
def div (x y : Binary64) : Binary64 :=
  let e := x.exponent - y.exponent
  let negative := x.negative != y.negative
  if 0 ≤ e then roundRatio negative (x.significand * Nat.pow 2 e.toNat) y.significand
  else roundRatio negative x.significand (y.significand * Nat.pow 2 (-e).toNat)

/-- The magnitude of a finite number as an exact quotient. -/
def ratio (x : Binary64) : Nat × Nat :=
  if 0 ≤ x.exponent then (x.significand * Nat.pow 2 x.exponent.toNat, 1)
  else (x.significand, Nat.pow 2 (-x.exponent).toNat)

/-- The magnitude of a finite number in units of `1 / unit`, rounded to a whole count of them. -/
def scaled (x : Binary64) (unit : Nat) : Nat := roundDiv (x.ratio.1 * unit) x.ratio.2

end Binary64

end ProximityLab
