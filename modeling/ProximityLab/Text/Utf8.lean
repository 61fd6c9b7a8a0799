/-!
# UTF-8

`scan` reads bytes as UTF-8 from the front: each item is a character, or `none` for an ill-formed
part (a stray byte, or the longest beginning of a character that the next byte does not continue).
Three readers differ in what they make of ill-formed parts:

* `decodeLenient` drops them, and drops the replacement character wherever it stands.
* `decodeLossy` puts a replacement character in their place.
* `decode?` refuses them.
-/

namespace ProximityLab.Text

/-- The bytes of one character. -/
def encodeChar (c : Char) : List UInt8 :=
  let n := c.toNat
  let byte (k : Nat) : UInt8 := UInt8.ofNat k
  if n < 0x80 then [byte n]
  else if n < 0x800 then [byte (0xC0 + n / 64), byte (0x80 + n % 64)]
  else if n < 0x10000 then
    [byte (0xE0 + n / 4096), byte (0x80 + n / 64 % 64), byte (0x80 + n % 64)]
  else
    [byte (0xF0 + n / 262144), byte (0x80 + n / 4096 % 64), byte (0x80 + n / 64 % 64),
      byte (0x80 + n % 64)]

/-- The bytes of a text. -/
def encode (s : String) : List UInt8 := s.toList.flatMap encodeChar

/-- The count of bytes of a text. -/
def byteLength (s : String) : Nat := (encode s).length

/-- A continuation byte. -/
def isContinuation (b : UInt8) : Bool := 0x80 ≤ b && b ≤ 0xBF

/-- The second bytes that a lead byte of three or four bytes admits. -/
def isSecond (lead b : UInt8) : Bool :=
  if lead = 0xE0 then 0xA0 ≤ b && b ≤ 0xBF
  else if lead = 0xED then 0x80 ≤ b && b ≤ 0x9F
  else if lead = 0xF0 then 0x90 ≤ b && b ≤ 0xBF
  else if lead = 0xF4 then 0x80 ≤ b && b ≤ 0x8F
  else isContinuation b

/-- The six payload bits of a continuation byte. -/
def payload (b : UInt8) : Nat := b.toNat % 64

/-- Reads the characters and the ill-formed parts of a byte sequence, in order. -/
def scan : List UInt8 → List (Option Char)
  | [] => []
  | a :: rest =>
    if a < 0x80 then some (Char.ofNat a.toNat) :: scan rest
    else if 0xC2 ≤ a && a ≤ 0xDF then
      match rest with
      | b :: rest' =>
        if isContinuation b then
          some (Char.ofNat ((a.toNat - 0xC0) * 64 + payload b)) :: scan rest'
        else none :: scan (b :: rest')
      | [] => [none]
    else if 0xE0 ≤ a && a ≤ 0xEF then
      match rest with
      | b :: c :: rest' =>
        if isSecond a b then
          if isContinuation c then
            some (Char.ofNat ((a.toNat - 0xE0) * 4096 + payload b * 64 + payload c)) :: scan rest'
          else none :: scan (c :: rest')
        else none :: scan (b :: c :: rest')
      | [b] => if isSecond a b then [none] else none :: scan [b]
      | [] => [none]
    else if 0xF0 ≤ a && a ≤ 0xF4 then
      match rest with
      | b :: c :: d :: rest' =>
        if isSecond a b then
          if isContinuation c then
            if isContinuation d then
              some (Char.ofNat ((a.toNat - 0xF0) * 262144 + payload b * 4096 + payload c * 64 +
                payload d)) :: scan rest'
            else none :: scan (d :: rest')
          else none :: scan (c :: d :: rest')
        else none :: scan (b :: c :: d :: rest')
      | [b, c] =>
        if isSecond a b then
          if isContinuation c then [none] else none :: scan [c]
        else none :: scan [b, c]
      | [b] => if isSecond a b then [none] else none :: scan [b]
      | [] => [none]
    else none :: scan rest

/-- The character that stands for ill-formed text. -/
def replacement : Char := Char.ofNat 0xFFFD

/-- The well-formed characters, replacement characters left out. -/
def lenientChars (bytes : List UInt8) : List Char :=
  (scan bytes).filterMap fun item => item.filter (· != replacement)

/-- Reads terminal bytes, dropping whatever is not well-formed. -/
def decodeLenient (bytes : List UInt8) : String := String.ofList (lenientChars bytes)

/-- Reads bytes, a replacement character for each ill-formed part. -/
def decodeLossy (bytes : List UInt8) : String :=
  String.ofList ((scan bytes).map (·.getD replacement))

/-- Reads bytes that have to be well-formed throughout. -/
def decode? (bytes : List UInt8) : Option String :=
  ((scan bytes).mapM id).map String.ofList

end ProximityLab.Text
