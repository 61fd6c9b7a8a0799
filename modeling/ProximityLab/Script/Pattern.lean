/-!
# Patterns

A pattern matches texts: an unquoted star stands for any text, a question mark for any character,
and brackets for one of several characters; everything else stands for itself.
-/

namespace ProximityLab.Script

/-- A character of an expanded word. -/
structure Glyph where
  char : Char
  quoted : Bool
  deriving DecidableEq

/-- What a part of a pattern matches. -/
inductive Atom where
  | text
  | any
  | one (c : Char)
  /-- A character in one of the ranges, or in none of them. -/
  | range (inside : Bool) (ranges : List (Char × Char))

/-- The ranges up to a closing bracket. A bracket in front is taken as it is. -/
def bracketRanges? : Bool → List Glyph → Option (List (Char × Char) × List Glyph)
  | _, [] => none
  | first, a :: rest =>
    if !first && !a.quoted && a.char = ']' then some ([], rest)
    else
      match rest with
      | d :: b :: rest' =>
        if !d.quoted && d.char = '-' && (b.quoted || b.char ≠ ']') then do
          let (ranges, rest) ← bracketRanges? false rest'
          return ((a.char, b.char) :: ranges, rest)
        else do
          let (ranges, rest) ← bracketRanges? false (d :: b :: rest')
          return ((a.char, a.char) :: ranges, rest)
      | rest => do
        let (ranges, rest) ← bracketRanges? false rest
        return ((a.char, a.char) :: ranges, rest)

/-- The ranges of a bracket expression behind its opening bracket. -/
def bracket? : List Glyph → Option (Atom × List Glyph)
  | [] => none
  | g :: rest =>
    if !g.quoted && (g.char = '!' || g.char = '^') then
      (bracketRanges? true rest).map fun (ranges, rest) => (.range false ranges, rest)
    else (bracketRanges? true (g :: rest)).map fun (ranges, rest) => (.range true ranges, rest)

/-- The parts of a pattern, at most `fuel` of them. -/
def atomsWithin : Nat → List Glyph → List Atom
  | 0, _ => []
  | _, [] => []
  | fuel + 1, g :: rest =>
    if g.quoted then .one g.char :: atomsWithin fuel rest
    else if g.char = '*' then .text :: atomsWithin fuel rest
    else if g.char = '?' then .any :: atomsWithin fuel rest
    else if g.char = '[' then
      match bracket? rest with
      | some (atom, rest) => atom :: atomsWithin fuel rest
      | none => .one '[' :: atomsWithin fuel rest
    else .one g.char :: atomsWithin fuel rest

/-- The parts of a pattern. -/
def atoms (pattern : List Glyph) : List Atom := atomsWithin pattern.length pattern

/-- All ends of a text, the longest first. -/
def ends : List Char → List (List Char)
  | [] => [[]]
  | c :: cs => (c :: cs) :: ends cs

/-- A character is what an atom stands for. -/
def Atom.admits (a : Atom) (c : Char) : Bool :=
  match a with
  | .text => false
  | .any => true
  | .one d => c = d
  | .range inside ranges => (ranges.any fun r => r.1 ≤ c && c ≤ r.2) == inside

/-- The atoms match the whole of a text. -/
def matchesAtoms : List Atom → List Char → Bool
  | [], s => s.isEmpty
  | .text :: atoms, s => (ends s).any (matchesAtoms atoms)
  | _ :: _, [] => false
  | a :: atoms, c :: s => a.admits c && matchesAtoms atoms s

/-- The pattern matches the whole of a text. -/
def matchesPattern (pattern : List Glyph) (s : List Char) : Bool := matchesAtoms (atoms pattern) s

/-- A text without a match of a pattern at its front: the longest or the shortest one. -/
def trimFront (longest : Bool) (pattern : List Glyph) (s : List Char) : List Char :=
  let lengths := List.range (s.length + 1)
  let fits := lengths.filter fun n => matchesPattern pattern (s.take n)
  match if longest then fits.getLast? else fits.head? with
  | some n => s.drop n
  | none => s

/-- A text without a match of a pattern at its end: the longest or the shortest one. -/
def trimEnd (longest : Bool) (pattern : List Glyph) (s : List Char) : List Char :=
  let lengths := List.range (s.length + 1)
  let fits := lengths.filter fun n => matchesPattern pattern (s.drop n)
  match if longest then fits.head? else fits.getLast? with
  | some n => s.take n
  | none => s

end ProximityLab.Script
