import ProximityLab.Number.Numeral

/-!
# Reading floating point text

`Binary64.ofText?` reads a number as people and configuration files write it: digits with an
optional point on either side of which digits may be missing (but not on both), an optional
exponent, or the words for the numbers that are not finite in any mixture of cases. The whole text
has to be a number.
-/

namespace ProximityLab

/-- Splits off a sign; the flag tells whether the number is negative. -/
def splitSign : List Char → Bool × List Char
  | '-' :: r => (true, r)
  | '+' :: r => (false, r)
  | r => (false, r)

/-- Reads an optional exponent that ends the text. -/
def Numeral.readPower? : List Char → Option (Option Int)
  | [] => some none
  | c :: r =>
    if c == 'e' || c == 'E' then
      match readExponent? r with
      | some (e, []) => some (some e)
      | _ => none
    else none

/-- Reads digits with an optional point and an optional exponent. -/
def Numeral.ofUnsigned? (negative : Bool) (cs : List Char) : Option Numeral :=
  let (whole, r) := takeDigits cs
  let (fraction, r) := match r with
    | '.' :: r => takeDigits r
    | r => ([], r)
  if whole.isEmpty && fraction.isEmpty then none
  else (readPower? r).map fun e => ⟨negative, whole, fraction, e⟩

/-- The number that a text denotes. -/
def Binary64.ofText? (cs : List Char) : Option Binary64 :=
  let (negative, r) := splitSign cs
  let word := String.ofList (r.map Char.toLower)
  if word = "inf" || word = "infinity" then some (if negative then infinity.neg else infinity)
  else if word = "nan" then some (if negative then nan.neg else nan)
  else (Numeral.ofUnsigned? negative r).map Numeral.toBinary64

end ProximityLab
