import ProximityLab.Json.Printer

/-!
# Reading JSON

`Json.read?` reads a whole text as one document: blanks are space, tab, line feed and carriage
return; numbers have no leading zeros; a string literal holds no control character. The readers of
parts return what follows the part. The depth of the recursion is bounded by the length of the
text, since every level consumes a character.
-/

namespace ProximityLab.Json

/-- The four blanks of a document. -/
def isSpace (c : Char) : Bool := c = ' ' || c = '\t' || c = '\n' || c = '\r'

/-- Skips blanks. -/
def skipSpace (cs : List Char) : List Char := cs.dropWhile isSpace

/-! ## Literals -/

/-- A piece of a string literal: a character, or a code unit written as an escape. -/
inductive Piece where
  | char (c : Char)
  | unit (n : Nat)
  deriving DecidableEq

/-- The value of a hexadecimal digit. -/
def hexValue? (c : Char) : Option Nat :=
  if '0' ≤ c && c ≤ '9' then some (c.toNat - 48)
  else if 'a' ≤ c && c ≤ 'f' then some (c.toNat - 87)
  else if 'A' ≤ c && c ≤ 'F' then some (c.toNat - 55)
  else none

/-- The number that four hexadecimal digits denote. -/
def hexUnit? (a b c d : Char) : Option Nat := do
  let a ← hexValue? a
  let b ← hexValue? b
  let c ← hexValue? c
  let d ← hexValue? d
  return ((a * 16 + b) * 16 + c) * 16 + d

/-- The character behind a backslash in a short escape. -/
def shortEscape? (c : Char) : Option Char :=
  if c = quote || c = '\\' || c = '/' then some c
  else if c = 'b' then some (Char.ofNat 8)
  else if c = 'f' then some (Char.ofNat 12)
  else if c = 'n' then some '\n'
  else if c = 'r' then some '\r'
  else if c = 't' then some '\t'
  else none

/-- Reads the pieces of a literal behind its opening quote. -/
def readPieces? : List Char → Option (List Piece × List Char)
  | [] => none
  | c :: cs =>
    if c = quote then some ([], cs)
    else if c = '\\' then
      match cs with
      | 'u' :: h₁ :: h₂ :: h₃ :: h₄ :: rest => do
        let n ← hexUnit? h₁ h₂ h₃ h₄
        let (ps, rest) ← readPieces? rest
        return (.unit n :: ps, rest)
      | e :: rest => do
        let c ← shortEscape? e
        let (ps, rest) ← readPieces? rest
        return (.char c :: ps, rest)
      | [] => none
    else if c.toNat < 0x20 then none
    else do
      let (ps, rest) ← readPieces? cs
      return (.char c :: ps, rest)

def isHighSurrogate (n : Nat) : Bool := 0xD800 ≤ n && n ≤ 0xDBFF
def isLowSurrogate (n : Nat) : Bool := 0xDC00 ≤ n && n ≤ 0xDFFF

/-- The characters that pieces denote; a surrogate needs its partner. -/
def joinPieces? : List Piece → Option (List Char)
  | [] => some []
  | .char c :: ps => (joinPieces? ps).map (c :: ·)
  | .unit n :: ps =>
    if isHighSurrogate n then
      match ps with
      | .unit m :: ps' =>
        if isLowSurrogate m then
          (joinPieces? ps').map (Char.ofNat (0x10000 + (n - 0xD800) * 1024 + (m - 0xDC00)) :: ·)
        else none
      | _ => none
    else if isLowSurrogate n then none
    else (joinPieces? ps).map (Char.ofNat n :: ·)

/-- Reads a literal behind its opening quote. -/
def readLiteral? (cs : List Char) : Option (Option String × List Char) :=
  (readPieces? cs).map fun (ps, rest) => ((joinPieces? ps).map String.ofList, rest)

/-! ## Numbers -/

/-- Reads the digits before the point: a zero alone, or digits that do not start with one. -/
def readWhole? (cs : List Char) : Option (List Char × List Char) :=
  match Numeral.takeDigits cs with
  | ([], _) => none
  | (['0'], rest) => some (['0'], rest)
  | ('0' :: _, _) => none
  | (ds, rest) => some (ds, rest)

/-- Reads a point and digits, if there is a point. -/
def readFraction? : List Char → Option (List Char × List Char)
  | '.' :: cs =>
    match Numeral.takeDigits cs with
    | ([], _) => none
    | (ds, rest) => some (ds, rest)
  | cs => some ([], cs)

/-- Reads an exponent, if there is its mark. -/
def readPower? : List Char → Option (Option Int × List Char)
  | c :: cs =>
    if c = 'e' || c = 'E' then (Numeral.readExponent? cs).map fun (e, rest) => (some e, rest)
    else some (none, c :: cs)
  | [] => some (none, [])

/-- Reads a number. -/
def readNumeral? (cs : List Char) : Option (Numeral × List Char) := do
  let (negative, cs) := match cs with
    | '-' :: r => (true, r)
    | r => (false, r)
  let (whole, cs) ← readWhole? cs
  let (fraction, cs) ← readFraction? cs
  let (exponent, cs) ← readPower? cs
  return (⟨negative, whole, fraction, exponent⟩, cs)

/-! ## Values -/

mutual

/-- Reads a value. -/
def readValue? : Nat → List Char → Option (Json × List Char)
  | 0, _ => none
  | fuel + 1, cs =>
    match skipSpace cs with
    | [] => none
    | c :: r =>
      if c = quote then (readLiteral? r).map fun (t, rest) => (.string t, rest)
      else if c = '[' then
        match skipSpace r with
        | ']' :: rest => some (.array [], rest)
        | r' => do
          let (j, r') ← readValue? fuel r'
          let (js, rest) ← readItems? fuel r'
          return (.array (j :: js), rest)
      else if c = openBrace then
        match skipSpace r with
        | [] => none
        | d :: r' =>
          if d = closeBrace then some (.object [], r')
          else do
            let (m, r'') ← readMember? fuel (d :: r')
            let (ms, rest) ← readMembers? fuel r''
            return (.object (m :: ms), rest)
      else match c, r with
        | 'n', 'u' :: 'l' :: 'l' :: rest => some (.null, rest)
        | 't', 'r' :: 'u' :: 'e' :: rest => some (.bool true, rest)
        | 'f', 'a' :: 'l' :: 's' :: 'e' :: rest => some (.bool false, rest)
        | _, _ => (readNumeral? (c :: r)).map fun (n, rest) => (.number n, rest)

/-- Reads what follows an item of an array, up to the closing bracket. -/
def readItems? : Nat → List Char → Option (List Json × List Char)
  | 0, _ => none
  | fuel + 1, cs =>
    match skipSpace cs with
    | ']' :: rest => some ([], rest)
    | ',' :: r => do
      let (j, r) ← readValue? fuel r
      let (js, rest) ← readItems? fuel r
      return (j :: js, rest)
    | _ => none

/-- Reads a member of an object. -/
def readMember? : Nat → List Char → Option ((Option String × Json) × List Char)
  | 0, _ => none
  | fuel + 1, cs =>
    match skipSpace cs with
    | [] => none
    | c :: r =>
      if c = quote then do
        let (k, r) ← readLiteral? r
        match skipSpace r with
        | ':' :: r => do
          let (j, rest) ← readValue? fuel r
          return ((k, j), rest)
        | _ => none
      else none

/-- Reads what follows a member of an object, up to the closing brace. -/
def readMembers? : Nat → List Char → Option (List (Option String × Json) × List Char)
  | 0, _ => none
  | fuel + 1, cs =>
    match skipSpace cs with
    | [] => none
    | c :: r =>
      if c = closeBrace then some ([], r)
      else if c = ',' then do
        let (m, r) ← readMember? fuel r
        let (ms, rest) ← readMembers? fuel r
        return (m :: ms, rest)
      else none

end

/-- Reads characters that are one document and nothing else. -/
def readChars? (cs : List Char) : Option Json :=
  match readValue? (2 * cs.length + 1) cs with
  | some (j, rest) => if (skipSpace rest).isEmpty then some j else none
  | none => none

/-- Reads a text that is one document and nothing else. -/
def read? (s : String) : Option Json := readChars? s.toList

end ProximityLab.Json
