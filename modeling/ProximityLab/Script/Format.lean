import ProximityLab.Script.Arithmetic

/-!
# Escapes and formats

`echoText` is the text of words that are echoed, `printed` the text of a format with its arguments.
Both know escape sequences: a byte by its octal number and the usual letters.
-/

namespace ProximityLab.Script

/-- A letter behind a backslash. -/
def escapeLetter? (c : Char) : Option Char :=
  match c with
  | 'a' => some (Char.ofNat 7)
  | 'b' => some (Char.ofNat 8)
  | 'e' => some (Char.ofNat 27)
  | 'f' => some (Char.ofNat 12)
  | 'n' => some '\n'
  | 'r' => some '\r'
  | 't' => some '\t'
  | 'v' => some (Char.ofNat 11)
  | '\\' => some '\\'
  | _ => none

def isOctal (c : Char) : Bool := '0' ≤ c && c ≤ '7'

/-- The byte of an octal number of at most `width` digits, and what follows it. -/
def octalByte (width : Nat) (cs : List Char) : Char × List Char :=
  let digits := (cs.take width).takeWhile isOctal
  (Char.ofNat (((digitsValue? 8 digits).getD 0) % 256), cs.drop digits.length)

/-- An escape sequence behind its backslash: the byte, and what follows. -/
def escape? (cs : List Char) : Option (Char × List Char) :=
  match cs with
  | [] => none
  | c :: rest =>
    if isOctal c then some (octalByte 3 cs) else (escapeLetter? c).map (·, rest)

/-- Replaces escape sequences as in echoed words, at most `fuel` characters; says whether the text
was cut short. -/
def unescapeWithin : Nat → List Char → List Char × Bool
  | 0, _ => ([], false)
  | _, [] => ([], false)
  | fuel + 1, c :: cs =>
    if c = '\\' then
      match cs with
      | 'c' :: _ => ([], true)
      | '0' :: rest =>
        let (b, rest) := octalByte 3 rest
        let (text, cut) := unescapeWithin fuel rest
        (b :: text, cut)
      | _ =>
        match escape? cs with
        | some (b, rest) =>
          let (text, cut) := unescapeWithin fuel rest
          (b :: text, cut)
        | none =>
          let (text, cut) := unescapeWithin fuel cs
          (c :: text, cut)
    else
      let (text, cut) := unescapeWithin fuel cs
      (c :: text, cut)

/-- Replaces escape sequences as in echoed words; says whether the text was cut short. -/
def unescape (cs : List Char) : List Char × Bool := unescapeWithin cs.length cs

/-- The text of echoed words: they are joined by blanks and followed by a line end, unless the first
one is `-n` or a sequence cuts the text short. -/
def echoText (words : List (List Char)) : List Char :=
  let (ended, words) := match words with
    | ['-', 'n'] :: words => (false, words)
    | words => (true, words)
  let (text, cut) := unescape ([' '].intercalate words)
  if cut || !ended then text else text ++ ['\n']

/-! ## Formats -/

/-- How a value is laid out. -/
structure Layout where
  left : Bool
  plus : Bool
  blank : Bool
  zero : Bool
  alternative : Bool
  width : Nat
  precision : Option Nat

/-- Fills a text up to the width. -/
def Layout.fill (l : Layout) (cs : List Char) : List Char :=
  let pad := List.replicate (l.width - cs.length) ' '
  if l.left then cs ++ pad else pad ++ cs

/-- A number with its sign or mark in front, filled up to the width. -/
def Layout.number (l : Layout) (mark digits : List Char) : List Char :=
  let digits := match l.precision with
    | some p => List.replicate (p - digits.length) '0' ++ digits
    | none => digits
  if l.zero && !l.left && l.precision.isNone then
    mark ++ List.replicate (l.width - mark.length - digits.length) '0' ++ digits
  else l.fill (mark ++ digits)

/-- The flags of a conversion. -/
def readFlags (l : Layout) : List Char → Layout × List Char
  | '-' :: cs => readFlags { l with left := true } cs
  | '+' :: cs => readFlags { l with plus := true } cs
  | ' ' :: cs => readFlags { l with blank := true } cs
  | '0' :: cs => readFlags { l with zero := true } cs
  | '#' :: cs => readFlags { l with alternative := true } cs
  | cs => (l, cs)

/-- The flags, the width and the precision of a conversion. -/
def readLayout (cs : List Char) : Layout × List Char :=
  let (l, cs) := readFlags ⟨false, false, false, false, false, 0, none⟩ cs
  let digits := cs.takeWhile Char.isDigit
  let l := { l with width := Numeral.valueOf digits }
  match cs.drop digits.length with
  | '.' :: cs =>
    let digits := cs.takeWhile Char.isDigit
    ({ l with precision := some (Numeral.valueOf digits) }, cs.drop digits.length)
  | cs => (l, cs)

/-- An argument as a number: a constant with a sign, or a character behind a quotation mark. The
flag says that the argument is one. -/
def numberArgument (arg : List Char) : Int × Bool :=
  match arg with
  | [] => (0, true)
  | c :: rest =>
    if c = Char.ofNat 0x22 || c = Char.ofNat 0x27 then ((rest.head?.map (·.toNat)).getD 0, true)
    else
      match signedConstant? arg with
      | some i => (i, true)
      | none =>
        let sign := arg.takeWhile fun c => c = '-' || c = '+'
        let digits := (arg.drop sign.length).takeWhile Char.isDigit
        ((signedConstant? (sign ++ digits)).getD 0, false)

/-- What a format has come to. -/
structure Printing where
  text : List Char
  arguments : List (List Char)
  /-- An argument was taken. -/
  took : Bool
  /-- Arguments that should have been numbers. -/
  wrong : List (List Char)
  /-- A conversion that there is not. -/
  unknown : Option (List Char)
  cut : Bool

/-- Adds text. -/
def Printing.add (p : Printing) (cs : List Char) : Printing := { p with text := p.text ++ cs }

/-- Takes an argument. -/
def Printing.take (p : Printing) : List Char × Printing :=
  match p.arguments with
  | a :: as => (a, { p with arguments := as, took := true })
  | [] => ([], { p with took := true })

/-- Takes an argument that should be a number. -/
def Printing.takeNumber (p : Printing) : Int × Printing :=
  let (arg, p) := p.take
  let (i, good) := numberArgument arg
  (i, if good then p else { p with wrong := p.wrong ++ [arg] })

/-- Carries out one conversion. -/
def convert (l : Layout) (c : Char) (p : Printing) : Printing :=
  let unsigned (base : Nat) (mark : List Char) (upper : Bool) : Printing :=
    let (i, p) := p.takeNumber
    let digits := Nat.toDigits base (i % 0x10000000000000000).toNat
    let digits := if upper then digits.map Char.toUpper else digits
    p.add (l.number (if l.alternative && i ≠ 0 then mark else []) digits)
  match c with
  | 's' =>
    let (arg, p) := p.take
    p.add (l.fill (arg.take (l.precision.getD arg.length)))
  | 'b' =>
    let (arg, p) := p.take
    let (text, cut) := unescape arg
    { p.add (l.fill (text.take (l.precision.getD text.length))) with cut := cut }
  | 'c' =>
    let (arg, p) := p.take
    p.add (l.fill (arg.take 1))
  | 'd' | 'i' =>
    let (i, p) := p.takeNumber
    let mark := if i < 0 then ['-'] else if l.plus then ['+'] else if l.blank then [' '] else []
    p.add (l.number mark (Nat.toDigits 10 i.natAbs))
  | 'u' => unsigned 10 [] false
  | 'o' => unsigned 8 ['0'] false
  | 'x' => unsigned 16 ['0', 'x'] false
  | 'X' => unsigned 16 ['0', 'X'] true
  | _ => p

/-- Goes through a format once. -/
def printOnce : Nat → List Char → Printing → Printing
  | 0, _, p => p
  | _, [], p => p
  | fuel + 1, c :: cs, p =>
    if p.cut then p
    else if c = '\\' then
      match escape? cs with
      | some (b, cs) => printOnce fuel cs (p.add [b])
      | none => printOnce fuel cs (p.add [c])
    else if c = '%' then
      match cs with
      | '%' :: cs => printOnce fuel cs (p.add ['%'])
      | _ =>
        let (l, rest) := readLayout cs
        match rest with
        | d :: rest' =>
          if "sbcdiuoxX".toList.contains d then printOnce fuel rest' (convert l d p)
          else { p with cut := true, unknown := some ('%' :: cs.take (cs.length - rest'.length)) }
        | [] => { p with cut := true, unknown := some ('%' :: cs) }
    else printOnce fuel cs (p.add [c])

/-- Goes through a format as long as it takes arguments and there are some. -/
def printAll : Nat → List Char → Printing → Printing
  | 0, _, p => p
  | fuel + 1, format, p =>
    let p := printOnce format.length format { p with took := false }
    if p.took && !p.arguments.isEmpty && !p.cut then printAll fuel format p else p

/-- What a format with arguments comes to. -/
def printed (format : List Char) (arguments : List (List Char)) : Printing :=
  printAll (arguments.length + 1) format ⟨[], arguments, false, [], none, false⟩

end ProximityLab.Script
