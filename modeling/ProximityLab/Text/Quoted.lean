import ProximityLab.Text.CharRange

/-!
# Quoted text

Texts in double quotes for people to read: quotes, backslashes and the common controls get a
backslash, every other character that cannot be seen on its own is written by its code point.
-/

namespace ProximityLab.Text

/-- Hexadecimal digits of a number, in lower case. -/
def hexDigits (n : Nat) : List Char := Nat.toDigits 16 n

/-- One character inside double quotes. -/
def quoteChar (c : Char) : List Char :=
  if c = '\t' then ['\\', 't']
  else if c = '\r' then ['\\', 'r']
  else if c = '\n' then ['\\', 'n']
  else if c.toNat = 0 then ['\\', '0']
  else if c.toNat = 0x22 ∨ c = '\\' then ['\\', c]
  else if inRanges extendRanges c || inRanges hiddenRanges c then
    ['\\', 'u', Char.ofNat 0x7B] ++ hexDigits c.toNat ++ [Char.ofNat 0x7D]
  else [c]

/-- A text in double quotes. -/
def quoted (s : String) : String :=
  String.ofList (Char.ofNat 0x22 :: s.toList.flatMap quoteChar ++ [Char.ofNat 0x22])

end ProximityLab.Text
