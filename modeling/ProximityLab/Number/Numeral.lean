import ProximityLab.Number.Binary64

/-!
# Decimal numerals

A `Numeral` is a number as it is written: a sign, digits before and after the point and an
exponent. It has a text, at most one integer value and one nearest double, and reading stops where
the text stops.
-/

namespace ProximityLab

/-- A number as it is written. -/
structure Numeral where
  negative : Bool
  /-- The digits before the point. -/
  whole : List Char
  /-- The digits after the point; empty if there is no point. -/
  fraction : List Char
  /-- The power of ten after the mark, if there is one. -/
  exponent : Option Int
  deriving DecidableEq, Inhabited

namespace Numeral

/-- An ASCII decimal digit. -/
def isDigit (c : Char) : Bool := '0' ≤ c && c ≤ '9'

/-- The value of an ASCII digit. -/
def digitValue (c : Char) : Nat := c.toNat - 48

/-- The number that a list of digits denotes. -/
def valueOf (ds : List Char) : Nat := ds.foldl (fun n c => 10 * n + digitValue c) 0

/-- The text of a signed power of ten. -/
def exponentText (e : Int) : List Char :=
  'e' :: (if e < 0 then '-' else '+') :: Nat.toDigits 10 e.natAbs

/-- The text of a numeral. -/
def chars (n : Numeral) : List Char :=
  (if n.negative then ['-'] else []) ++ n.whole ++
    (if n.fraction.isEmpty then [] else '.' :: n.fraction) ++
    match n.exponent with
    | some e => exponentText e
    | none => []

/-- The text of a numeral. -/
def text (n : Numeral) : String := String.ofList n.chars

/-- A whole number. -/
def ofNat (n : Nat) : Numeral := ⟨false, Nat.toDigits 10 n, [], none⟩

/-- A whole number with its sign. -/
def ofInt (i : Int) : Numeral := ⟨decide (i < 0), Nat.toDigits 10 i.natAbs, [], none⟩

/-- Written without a point and without an exponent. -/
def isWhole (n : Numeral) : Bool := n.fraction.isEmpty && n.exponent.isNone

/-- The integer that a whole numeral denotes. Minus zero is no integer: its sign has a meaning. -/
def toInt? (n : Numeral) : Option Int :=
  if n.isWhole then
    let v := valueOf n.whole
    if n.negative then if v = 0 then none else some (-(v : Int)) else some v
  else none

/-- The nearest double. -/
def toBinary64 (n : Numeral) : Binary64 :=
  Binary64.ofDecimal n.negative (valueOf (n.whole ++ n.fraction))
    (n.exponent.getD 0 - n.fraction.length)

/-- The nearest double, if it is finite. -/
def toFinite? (n : Numeral) : Option Binary64 :=
  let x := n.toBinary64
  if x.isFinite then some x else none

/-! ## Reading -/

/-- Splits off the digits in front. -/
def takeDigits (cs : List Char) : List Char × List Char :=
  (cs.takeWhile isDigit, cs.dropWhile isDigit)

/-- Reads a sign and at least one digit. -/
def readExponent? (cs : List Char) : Option (Int × List Char) :=
  let (negative, r) := match cs with
    | '-' :: r => (true, r)
    | '+' :: r => (false, r)
    | r => (false, r)
  match takeDigits r with
  | ([], _) => none
  | (ds, rest) =>
    let v : Int := valueOf ds
    some (if negative then -v else v, rest)

end Numeral

end ProximityLab
