import ProximityLab.Number.Shortest
import ProximityLab.Number.Numeral

/-!
# Floating point text

`FloatStyle` holds the decisions of a number format: which powers of ten are written positionally,
what closes a whole number and what stands for the words that are no finite number.
`FloatStyle.numeral` writes the shortest digits of a finite number in that style. The two styles of
this library are `FloatStyle.json` and `FloatStyle.plain`; `fixedPoint` writes a fixed count of
places.
-/

namespace ProximityLab

/-- The decisions of a number format. -/
structure FloatStyle where
  /-- The least power of ten of the first digit that is written positionally, if there is one. -/
  leastPositional : Option Int
  /-- The greatest power of ten of the first digit that is written positionally, if there is one. -/
  greatestPositional : Option Int
  /-- The digits after the point of a whole number that is written positionally. -/
  wholeFraction : List Char
  nanText : String
  infiniteText : String

namespace FloatStyle

/-- Numbers of a JSON document and of answers: positional from `1e-5` up to below `1e16`, always
with a point or an exponent. -/
def json : FloatStyle :=
  { leastPositional := some (-5), greatestPositional := some 15, wholeFraction := ['0'],
    nanText := "NaN", infiniteText := "inf" }

/-- Values of environment variables: always positional, no point in a whole number. -/
def plain : FloatStyle :=
  { leastPositional := none, greatestPositional := none, wholeFraction := [],
    nanText := "NaN", infiniteText := "inf" }

end FloatStyle

/-- Decimal digits of a natural number, padded with zeros on the left to a least width. -/
def paddedDigits (width n : Nat) : List Char :=
  let ds := Nat.toDigits 10 n
  List.replicate (width - ds.length) '0' ++ ds

/-- A decimal without an exponent: zeros fill the places up to the point. -/
def Decimal.positional (d : Decimal) (negative : Bool) (wholeFraction : List Char) : Numeral :=
  if 0 ≤ d.power then
    ⟨negative, Nat.toDigits 10 d.digits ++ List.replicate d.power.toNat '0', wholeFraction, none⟩
  else
    let places := (-d.power).toNat
    let ds := paddedDigits (places + 1) d.digits
    ⟨negative, ds.take (ds.length - places), ds.drop (ds.length - places), none⟩

/-- A decimal with one digit before the point and an exponent. -/
def Decimal.scientific (d : Decimal) (negative : Bool) : Numeral :=
  let ds := Nat.toDigits 10 d.digits
  ⟨negative, ds.take 1, ds.drop 1, some (d.power + (ds.drop 1).length)⟩

/-- The power of ten of the first digit. -/
def Decimal.leadingPower (d : Decimal) : Int :=
  d.power + (Binary64.decimalLength d.digits : Int) - 1

/-- A positive decimal in a style. -/
def FloatStyle.decimal (style : FloatStyle) (negative : Bool) (d : Decimal) : Numeral :=
  let p := d.leadingPower
  let tooSmall := style.leastPositional.any fun l => p < l
  let tooLarge := style.greatestPositional.any fun g => g < p
  if tooSmall || tooLarge then d.scientific negative else d.positional negative style.wholeFraction

/-- A finite number in a style. -/
def FloatStyle.numeral (style : FloatStyle) (x : Binary64) : Numeral :=
  if x.magnitude = 0 then ⟨x.negative, ['0'], style.wholeFraction, none⟩
  else style.decimal x.negative x.shortest

/-- A number in a style. -/
def FloatStyle.render (style : FloatStyle) (x : Binary64) : String :=
  if x.isNaN then style.nanText
  else if x.isFinite then (style.numeral x).text
  else if x.negative then "-" ++ style.infiniteText
  else style.infiniteText

/-- A finite number that is not negative, with `places` digits after the point; the exact value is
rounded, a half to the even digit. -/
def fixedPoint (places : Nat) (x : Binary64) : String :=
  let ds := paddedDigits (places + 1) (x.scaled (Nat.pow 10 places))
  let n : Numeral := ⟨false, ds.take (ds.length - places), ds.drop (ds.length - places), none⟩
  n.text

end ProximityLab
