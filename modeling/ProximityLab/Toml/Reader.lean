import ProximityLab.Number.Numeral
import ProximityLab.Toml.Table

/-!
# Reading TOML

`read?` reads a TOML file as the table it denotes, or refuses it. The readers below take the
characters that are left and give what they read with the characters behind it.
-/

namespace ProximityLab.Toml

/-! ## Blanks, comments and line ends -/

/-- A blank within a line. -/
def isSpace (c : Char) : Bool := c == ' ' || c == '\t'

/-- A character of comments and literal strings: any but a control, tabs apart. -/
def isPrintable (c : Char) : Bool := c == '\t' || (0x20 ≤ c.toNat && c.toNat != 0x7F)

/-- Passes blanks. -/
def skipSpaces (cs : List Char) : List Char := cs.dropWhile isSpace

/-- Passes a line end. -/
def newline? : List Char → Option (List Char)
  | '\n' :: r => some r
  | '\r' :: '\n' :: r => some r
  | _ => none

/-- Passes a comment, if one is next. -/
def skipComment : List Char → List Char
  | '#' :: r => r.dropWhile isPrintable
  | cs => cs

/-- Passes blanks, a comment and the end of the line or of the file. -/
def endLine? (cs : List Char) : Option (List Char) :=
  match skipComment (skipSpaces cs) with
  | [] => some []
  | r => newline? r

/-- Passes blanks, comments and line ends. -/
def skipLines : Nat → List Char → List Char
  | 0, cs => cs
  | fuel + 1, cs =>
    let r := skipComment (skipSpaces cs)
    match newline? r with
    | some r => skipLines fuel r
    | none => r

/-- Passes blanks and line ends. -/
def skipWhite : Nat → List Char → List Char
  | 0, cs => cs
  | fuel + 1, cs =>
    let r := skipSpaces cs
    match newline? r with
    | some r => skipWhite fuel r
    | none => r

/-! ## Strings -/

/-- The two kinds of quotes. -/
def basicQuote : Char := Char.ofNat 0x22
def literalQuote : Char := Char.ofNat 0x27

/-- The value of a hexadecimal digit. -/
def hexDigit? (c : Char) : Option Nat :=
  if '0' ≤ c && c ≤ '9' then some (c.toNat - 48)
  else if 'a' ≤ c && c ≤ 'f' then some (c.toNat - 87)
  else if 'A' ≤ c && c ≤ 'F' then some (c.toNat - 55)
  else none

/-- Reads a character given by `width` hexadecimal digits. -/
def readCodePoint? (width : Nat) (cs : List Char) : Option (Char × List Char) := do
  let ds := cs.take width
  let n ← ds.foldlM (fun n c => (hexDigit? c).map (16 * n + ·)) 0
  if ds.length == width && n.isValidChar then return (Char.ofNat n, cs.drop width) else none

/-- Reads what follows a backslash. -/
def readEscape? : List Char → Option (Char × List Char)
  | 'b' :: r => some (Char.ofNat 8, r)
  | 't' :: r => some ('\t', r)
  | 'n' :: r => some ('\n', r)
  | 'f' :: r => some (Char.ofNat 0x0C, r)
  | 'r' :: r => some ('\r', r)
  | '\\' :: r => some ('\\', r)
  | 'u' :: r => readCodePoint? 4 r
  | 'U' :: r => readCodePoint? 8 r
  | c :: r => if c == basicQuote then some (c, r) else none
  | [] => none

/-- Reads the rest of a string of one line up to its quote. -/
def readLineString? (quote : Char) : Nat → List Char → Option (List Char × List Char)
  | 0, _ => none
  | fuel + 1, cs =>
    match cs with
    | [] => none
    | c :: r =>
      if c == quote then some ([], r)
      else do
        let (x, r) ←
          if quote == basicQuote && c == '\\' then readEscape? r
          else if isPrintable c then some (c, r)
          else none
        let (xs, r) ← readLineString? quote fuel r
        return (x :: xs, r)

/-- The rest behind a backslash that ends a line: white space up to the next text. -/
def foldedLine? (cs : List Char) : Option (List Char) :=
  (newline? (skipSpaces cs)).map fun r => skipWhite (r.length + 1) r

/-- Reads the rest of a string of several lines up to its three quotes; one or two quotes in front
of those belong to the text. -/
def readTextBlock? (quote : Char) : Nat → List Char → Option (List Char × List Char)
  | 0, _ => none
  | fuel + 1, cs =>
    match cs with
    | [] => none
    | c :: r =>
      let more (xs : List Char) (r : List Char) : Option (List Char × List Char) :=
        (readTextBlock? quote fuel r).map fun (ys, r) => (xs ++ ys, r)
      if c == quote then
        let run := cs.takeWhile (· == quote)
        let r := cs.drop run.length
        if run.length < 3 then more run r
        else if run.length ≤ 5 then some (run.drop 3, r)
        else none
      else
        match newline? cs with
        | some r => more ['\n'] r
        | none =>
          if quote == basicQuote && c == '\\' then
            match foldedLine? r with
            | some r => more [] r
            | none => do
              let (x, r) ← readEscape? r
              more [x] r
          else if isPrintable c then more [c] r
          else none

/-- Reads a string of either kind, of one line or of several. -/
def readString? (cs : List Char) : Option (String × List Char) := do
  let quote ← cs.head?
  let (text, r) ←
    match cs.drop 1 with
    | a :: b :: r =>
      if a == quote && b == quote then
        readTextBlock? quote (r.length + 1) ((newline? r).getD r)
      else readLineString? quote (r.length + 3) (a :: b :: r)
    | r => readLineString? quote (r.length + 1) r
  return (String.ofList text, r)

/-! ## Keys -/

/-- A character of a key without quotes. -/
def isKeyChar (c : Char) : Bool := c.isAlphanum || c == '_' || c == '-'

/-- Reads one part of a key. -/
def readKeyPart? (cs : List Char) : Option (String × List Char) :=
  match cs with
  | c :: r =>
    if c == basicQuote || c == literalQuote then
      (readLineString? c (r.length + 1) r).map fun (s, r) => (String.ofList s, r)
    else
      let run := cs.takeWhile isKeyChar
      if run.isEmpty then none else some (String.ofList run, cs.drop run.length)
  | [] => none

/-- Tables and arrays may not nest, and keys may not have parts, to this count. -/
def nestingLimit : Nat := 80

/-- Reads a key of at most `fuel` parts with dots between them. -/
def readKey? : Nat → List Char → Option (List String × List Char)
  | 0, _ => none
  | fuel + 1, cs => do
    let (part, r) ← readKeyPart? (skipSpaces cs)
    match skipSpaces r with
    | '.' :: r => (readKey? fuel r).map fun (parts, r) => (part :: parts, r)
    | r => return ([part], r)

/-! ## Numbers -/

/-- Reads digits; an underscore may stand between two of them. -/
def readDigits? (p : Char → Bool) : List Char → Option (List Char × List Char)
  | c :: r =>
    if p c then
      match r with
      | '_' :: d :: r' =>
        if p d then (readDigits? p (d :: r')).map fun (ds, rest) => (c :: ds, rest)
        else some ([c], r)
      | d :: r' =>
        if p d then (readDigits? p (d :: r')).map fun (ds, rest) => (c :: ds, rest)
        else some ([c], d :: r')
      | [] => some ([c], [])
    else none
  | [] => none

/-- Reads a sign, if one is next; the flag tells whether it is minus. -/
def readSign : List Char → Bool × List Char
  | '-' :: r => (true, r)
  | '+' :: r => (false, r)
  | r => (false, r)

/-- Reads digits without a zero in front, or a zero. -/
def readWhole? : List Char → Option (List Char × List Char)
  | '0' :: r => some (['0'], r)
  | cs => readDigits? Numeral.isDigit cs

/-- Reads an exponent, if one is next. -/
def readPower? : List Char → Option (Option Int × List Char)
  | c :: r =>
    if c == 'e' || c == 'E' then do
      let (negative, r) := readSign r
      let (ds, r) ← readDigits? Numeral.isDigit r
      let n : Int := Numeral.valueOf ds
      return (some (if negative then -n else n), r)
    else some (none, c :: r)
  | [] => some (none, [])

/-- Reads a decimal number with a fraction or an exponent. One that is too large is refused if it is
positive. -/
def readDecimal? (cs : List Char) : Option (Value × List Char) := do
  let (negative, r) := readSign cs
  let (whole, r) ← readWhole? r
  let (fraction, r) ←
    match r with
    | '.' :: r => readDigits? Numeral.isDigit r
    | r => some ([], r)
  let (power, r) ← readPower? r
  if fraction.isEmpty && power.isNone then none
  let x := (Numeral.mk negative whole fraction power).toBinary64
  if x.isFinite || negative then return (.float x, r) else none

/-- Reads the words for numbers that are not finite. -/
def readWord? (cs : List Char) : Option (Value × List Char) :=
  let (negative, r) := readSign cs
  let signed (x : Binary64) : Value := .float (if negative then x.neg else x)
  match r with
  | 'i' :: 'n' :: 'f' :: r => some (signed .infinity, r)
  | 'n' :: 'a' :: 'n' :: r => some (signed .nan, r)
  | _ => none

/-- Reads the digits of an integer in a base. -/
def readBased? (base : Nat) (cs : List Char) : Option (Int × List Char) := do
  let (ds, r) ← readDigits? (fun c => (hexDigit? c).any (· < base)) cs
  return (((ds.foldl (fun n c => base * n + (hexDigit? c).getD 0) 0 : Nat) : Int), r)

/-- Reads an integer of 64 bits. -/
def readInteger? (cs : List Char) : Option (Value × List Char) := do
  let (i, r) ←
    match cs with
    | '0' :: 'x' :: r => readBased? 16 r
    | '0' :: 'o' :: r => readBased? 8 r
    | '0' :: 'b' :: r => readBased? 2 r
    | _ => do
      let (negative, r) := readSign cs
      let (ds, r) ← readWhole? r
      let n : Int := Numeral.valueOf ds
      some (if negative then -n else n, r)
  if -0x8000000000000000 ≤ i && i < 0x8000000000000000 then return (.int i, r) else none

/-! ## Dates and times -/

/-- Reads a number of `width` digits between two bounds. -/
def readField? (width lo hi : Nat) (cs : List Char) : Option (Nat × List Char) :=
  let ds := cs.take width
  let n := Numeral.valueOf ds
  if ds.length == width && ds.all Numeral.isDigit && lo ≤ n && n ≤ hi then some (n, cs.drop width)
  else none

/-- Passes a character. -/
def pass? (c : Char) : List Char → Option (List Char)
  | d :: r => if d == c then some r else none
  | [] => none

/-- The days of a month. -/
def daysIn (year month : Nat) : Nat :=
  if month = 2 then
    if year % 4 = 0 && (year % 100 != 0 || year % 400 = 0) then 29 else 28
  else if [4, 6, 9, 11].contains month then 30
  else 31

/-- Passes a date. -/
def date? (cs : List Char) : Option (List Char) := do
  let (year, r) ← readField? 4 0 9999 cs
  let (month, r) ← readField? 2 1 12 (← pass? '-' r)
  let (_, r) ← readField? 2 1 (daysIn year month) (← pass? '-' r)
  return r

/-- Passes a time of day. -/
def time? (cs : List Char) : Option (List Char) := do
  let (_, r) ← readField? 2 0 23 cs
  let (_, r) ← readField? 2 0 59 (← pass? ':' r)
  let (_, r) ← readField? 2 0 60 (← pass? ':' r)
  match r with
  | '.' :: r =>
    if (r.takeWhile Numeral.isDigit).isEmpty then none
    else return r.dropWhile Numeral.isDigit
  | r => return r

/-- Passes an offset from universal time, if one is next. -/
def offset? (cs : List Char) : Option (List Char) :=
  match cs with
  | [] => some []
  | c :: r =>
    if c == 'Z' || c == 'z' then some r
    else if c == '+' || c == '-' then do
      let (_, r) ← readField? 2 0 23 r
      let (_, r) ← readField? 2 0 59 (← pass? ':' r)
      return r
    else some cs

/-- Passes a date with or without a time, or a time. -/
def moment? (cs : List Char) : Option (List Char) :=
  match date? cs with
  | none => time? cs
  | some r =>
    match r with
    | [] => some []
    | c :: r' =>
      if c == 'T' || c == 't' || c == ' ' then
        match time? r' with
        | some r'' => offset? r''
        | none => some r
      else some r

/-! ## Values -/

/-- Reads a number, a date or a time. -/
def readNumber? (cs : List Char) : Option (Value × List Char) :=
  match moment? cs with
  | some r => some (.moment, r)
  | none => (readDecimal? cs).or ((readWord? cs).or (readInteger? cs))

/-- Reads a value that is no array and no table. -/
def readAtom? (cs : List Char) : Option (Value × List Char) :=
  match cs with
  | [] => none
  | c :: _ =>
    if c == basicQuote || c == literalQuote then
      (readString? cs).map fun (s, r) => (.text s, r)
    else
      match cs with
      | 't' :: 'r' :: 'u' :: 'e' :: r => some (.bool true, r)
      | 'f' :: 'a' :: 'l' :: 's' :: 'e' :: r => some (.bool false, r)
      | _ => readNumber? cs

mutual

/-- Reads a value, inside of at most `room` more arrays and tables. -/
def readValue? (room : Nat) : Nat → List Char → Option (Entry × List Char)
  | 0, _ => none
  | fuel + 1, cs =>
    match cs, room with
    | '[' :: r, room + 1 =>
      if room = 0 then none
      else (readItems? room fuel r).map fun (items, r) => (.value (.array items), r)
    | c :: r, room =>
      if c.toNat == 0x7B then
        match room with
        | 0 | 1 => none
        | room + 1 => readPairs? room true [] fuel r
      else (readAtom? cs).map fun (v, r) => (.value v, r)
    | [], _ => none

/-- Reads the items of an array and its end. -/
def readItems? (room : Nat) : Nat → List Char → Option (List Value × List Char)
  | 0, _ => none
  | fuel + 1, cs =>
    match skipLines (cs.length + 1) cs with
    | ']' :: r => some ([], r)
    | r => do
      let (item, r) ← readValue? room fuel r
      match skipLines (r.length + 1) r with
      | ',' :: r => do
        let (items, r) ← readItems? room fuel r
        return (item.denote :: items, r)
      | ']' :: r => return ([item.denote], r)
      | _ => none

/-- Reads the entries of a table between braces and its end. -/
def readPairs? (room : Nat) (first : Bool) (es : Entries) :
    Nat → List Char → Option (Entry × List Char)
  | 0, _ => none
  | fuel + 1, cs =>
    match skipSpaces cs with
    | [] => none
    | c :: r =>
      if first && c.toNat == 0x7D then some (.table .inline es, r)
      else do
        let (keys, r) ← readKey? (nestingLimit - 1) (c :: r)
        let (v, r) ← readValue? room fuel (skipSpaces (← pass? '=' r))
        let es ← addValue? keys v .inline es
        match skipSpaces r with
        | ',' :: r => readPairs? room false es fuel r
        | d :: r => if d.toNat == 0x7D then return (.table .inline es, r) else none
        | [] => none

end

/-! ## Files -/

/-- Reads one line: a table's header, a value under a key, or nothing. -/
def readLine? (current : List String) (es : Entries) (cs : List Char) :
    Option (List String × Entries × List Char) :=
  match skipSpaces cs with
  | '[' :: '[' :: r => do
    let (keys, r) ← readKey? (nestingLimit - 1) r
    match r with
    | ']' :: ']' :: r => return (keys, ← openItem? keys .header es, ← endLine? r)
    | _ => none
  | '[' :: r => do
    let (keys, r) ← readKey? (nestingLimit - 1) r
    match r with
    | ']' :: r => return (keys, ← openTable? keys .header es, ← endLine? r)
    | _ => none
  | r =>
    match endLine? r with
    | some r => some (current, es, r)
    | none => do
      let (keys, r) ← readKey? (nestingLimit - 1) r
      let r := skipSpaces (← pass? '=' r)
      let (v, r) ← readValue? nestingLimit (r.length + 1) r
      return (current, ← update false (addValue? keys v) current .header es, ← endLine? r)

/-- Reads the lines of a file. -/
def readFile? : Nat → List String → Entries → List Char → Option Entries
  | 0, _, _, _ => none
  | fuel + 1, current, es, cs =>
    if cs.isEmpty then some es
    else do
      let (current, es, r) ← readLine? current es cs
      readFile? fuel current es r

/-- The table that a file denotes. A byte order mark may stand in front. -/
def read? (text : String) : Option (List (String × Value)) :=
  let cs := match text.toList with
    | c :: cs => if c.toNat == 0xFEFF then cs else c :: cs
    | [] => []
  (readFile? (cs.length + 1) [] [] cs).map denoteEntries

end ProximityLab.Toml
