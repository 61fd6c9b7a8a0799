import ProximityLab.Number.Numeral

/-!
# Arithmetic in scripts

An expression holds integers, names of parameters, parentheses, operators and assignments. Values
are 64 bits wide in two's complement. `Sum.evaluate` gives the value and the assignments.
-/

namespace ProximityLab.Script

/-- The value of a number in 64 bits. -/
def wrap64 (i : Int) : Int := i.bmod 0x10000000000000000

/-- The value of a text of digits to a base; the end of the text ends it. -/
def digitsValue? (base : Nat) (cs : List Char) : Option Nat :=
  cs.foldlM (fun n c =>
    let d := if c.isDigit then c.toNat - 48 else if 'a' ≤ c.toLower && c.toLower ≤ 'f' then
      c.toLower.toNat - 87 else 99
    if d < base then some (n * base + d) else none) 0

/-- The value of a constant: hexadecimal behind `0x`, octal behind a zero, else decimal. -/
def constant? (cs : List Char) : Option Int :=
  match cs with
  | [] => none
  | '0' :: x :: rest =>
    if x = 'x' || x = 'X' then (digitsValue? 16 rest).map fun n => wrap64 n
    else (digitsValue? 8 (x :: rest)).map fun n => wrap64 n
  | cs => (digitsValue? 10 cs).map fun n => wrap64 n

/-- The value of a constant with a sign, between blanks. -/
def signedConstant? (cs : List Char) : Option Int :=
  let cs := (cs.dropWhile Char.isWhitespace).reverse.dropWhile Char.isWhitespace |>.reverse
  match cs with
  | '-' :: cs => (constant? cs).map fun i => wrap64 (-i)
  | '+' :: cs => constant? cs
  | cs => constant? cs

namespace Sum

/-- A truth value as a number. -/
def truth (b : Bool) : Int := if b then 1 else 0

/-- The operators that join two values, longer ones first, and how strongly they do. -/
def operators : List (List Char × Nat) :=
  [("||", 1), ("&&", 2), ("==", 6), ("!=", 6), ("<=", 7), (">=", 7), ("<<", 8), (">>", 8), ("|", 3),
    ("^", 4), ("&", 5), ("<", 7), (">", 7), ("+", 9), ("-", 9), ("*", 10), ("/", 10),
    ("%", 10)].map fun p => (p.1.toList, p.2)

/-- The operator at the front. -/
def operator? (cs : List Char) : Option (List Char × Nat) :=
  operators.find? fun p => p.1.isPrefixOf cs

/-- Applies an operation to the bits of two values. -/
def bitwise (f : Nat → Nat → Nat) (a b : Int) : Int :=
  wrap64 (f (a % 0x10000000000000000).toNat (b % 0x10000000000000000).toNat)

/-- What an expression that cannot be read lacks. -/
def unreadable : String := "expecting primary"

/-- Joins two values; a division by zero has none. -/
def join? (op : List Char) (a b : Int) : Option Int :=
  match String.ofList op with
  | "||" => some (truth (a ≠ 0 || b ≠ 0))
  | "&&" => some (truth (a ≠ 0 && b ≠ 0))
  | "==" => some (truth (a = b))
  | "!=" => some (truth (a ≠ b))
  | "<=" => some (truth (a ≤ b))
  | ">=" => some (truth (a ≥ b))
  | "<" => some (truth (a < b))
  | ">" => some (truth (a > b))
  | "<<" => some (wrap64 (a * Nat.pow 2 (b % 64).toNat))
  | ">>" => some (a / Nat.pow 2 (b % 64).toNat)
  | "|" => some (bitwise Nat.lor a b)
  | "^" => some (bitwise Nat.xor a b)
  | "&" => some (bitwise Nat.land a b)
  | "+" => some (wrap64 (a + b))
  | "-" => some (wrap64 (a - b))
  | "*" => some (wrap64 (a * b))
  | "/" => if b = 0 then none else some (wrap64 (a.tdiv b))
  | "%" => if b = 0 then none else some (a.tmod b)
  | _ => none

/-- Assignments, the latest first. -/
abbrev Changes := List (List Char × Int)

/-- The value that is there, else a message. -/
def demand (message : String) (i : Option Int) : Except String Int :=
  match i with
  | some i => .ok i
  | none => .error message

/-- Joins two values, or gives a message. -/
def join (op : List Char) (a b : Int) : Except String Int :=
  demand "division by zero" (join? op a b)

/-- The value of a name after some changes. -/
def valueOf (look : List Char → Option Int) (changes : Changes) (name : List Char) : Option Int :=
  match changes.lookup name with
  | some i => some i
  | none => look name

/-- The value of a name after some changes, or a message. -/
def lookUp (look : List Char → Option Int) (changes : Changes) (name : List Char) :
    Except String Int :=
  demand "Illegal number" (valueOf look changes name)

def skip (cs : List Char) : List Char := cs.dropWhile Char.isWhitespace

/-- The operator of an assignment: the operation that it includes, if any. -/
def assignment? (cs : List Char) : Option (Option (List Char) × List Char) :=
  match cs with
  | '=' :: '=' :: _ => none
  | '=' :: rest => some (none, rest)
  | _ =>
    match operator? cs with
    | some (op, _) =>
      match cs.drop op.length with
      | '=' :: rest =>
        if ["+", "-", "*", "/", "%", "&", "|", "^", "<<", ">>"].contains (String.ofList op) then
          some (some op, rest)
        else none
      | _ => none
    | none => none

mutual

/-- Evaluates a whole expression at the front. -/
def expression (look : List Char → Option Int) :
    Nat → Changes → List Char → Except String (Int × Changes × List Char)
  | 0, _, _ => .error unreadable
  | fuel + 1, changes, cs => do
    let (a, changes, cs) ← operand look fuel changes (skip cs)
    let (a, changes, cs) ← joined look fuel 1 a changes cs
    match skip cs with
    | '?' :: cs =>
      let (yes, left, cs) ← expression look fuel changes cs
      match skip cs with
      | ':' :: cs =>
        let (no, right, cs) ← expression look fuel changes cs
        return if a ≠ 0 then (yes, left, cs) else (no, right, cs)
      | _ => .error "expecting ':'"
    | cs => return (a, changes, cs)

/-- Evaluates the operators behind a value that join at least as strongly as given. -/
def joined (look : List Char → Option Int) :
    Nat → Nat → Int → Changes → List Char → Except String (Int × Changes × List Char)
  | 0, _, _, _, _ => .error unreadable
  | fuel + 1, least, a, changes, cs =>
    let cs := skip cs
    match operator? cs with
    | none => .ok (a, changes, cs)
    | some (op, strength) =>
      if strength < least then .ok (a, changes, cs)
      else do
        let (b, changes, cs) ← operand look fuel changes (skip (cs.drop op.length))
        let (b, changes, cs) ← joined look fuel (strength + 1) b changes cs
        joined look fuel least (← join op a b) changes cs

/-- Evaluates one value. -/
def operand (look : List Char → Option Int) :
    Nat → Changes → List Char → Except String (Int × Changes × List Char)
  | 0, _, _ => .error unreadable
  | _ + 1, _, [] => .error unreadable
  | fuel + 1, changes, c :: cs =>
    if c = '(' then do
      let (a, changes, cs) ← expression look fuel changes cs
      match skip cs with
      | ')' :: cs => return (a, changes, cs)
      | _ => .error "expecting ')'"
    else if c = '-' then do
      let (a, changes, cs) ← operand look fuel changes (skip cs)
      return (wrap64 (-a), changes, cs)
    else if c = '+' then operand look fuel changes (skip cs)
    else if c = '!' then do
      let (a, changes, cs) ← operand look fuel changes (skip cs)
      return (truth (a = 0), changes, cs)
    else if c = '~' then do
      let (a, changes, cs) ← operand look fuel changes (skip cs)
      return (-a - 1, changes, cs)
    else if c.isDigit then do
      let digits := (c :: cs).takeWhile Char.isAlphanum
      return (← demand unreadable (constant? digits), changes, (c :: cs).drop digits.length)
    else if c.isAlpha || c = '_' then
      let name := (c :: cs).takeWhile fun d => d.isAlphanum || d = '_'
      let rest := skip ((c :: cs).drop name.length)
      match assignment? rest with
      | none => do return (← lookUp look changes name, changes, rest)
      | some (op, rest) => do
        let (b, changes, rest) ← expression look fuel changes rest
        let value ← match op with
          | none => pure b
          | some op => do join op (← lookUp look changes name) b
        return (value, (name, value) :: changes, rest)
    else .error unreadable

end

/-- The value of an expression and its assignments, or a message; the empty expression is zero. -/
def evaluate (look : List Char → Option Int) (cs : List Char) : Except String (Int × Changes) :=
  if (skip cs).isEmpty then .ok (0, [])
  else do
    let (a, changes, rest) ← expression look (4 * cs.length + 8) [] cs
    if (skip rest).isEmpty then return (a, changes) else .error "expecting EOF"

end Sum

end ProximityLab.Script
