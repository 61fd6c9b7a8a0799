import ProximityLab.Script.Command
import ProximityLab.Script.Machine
import ProximityLab.Script.Pattern
import ProximityLab.Script.Reader

/-!
# Expansion of words

Expanding a word replaces parameters and arithmetic expressions by their values. The result is a
list of `Mark`s, from which `fields` makes separate words: values that stand unquoted are split at
blanks.
-/

namespace ProximityLab.Script

/-- A piece of an expanded word. -/
inductive Mark where
  /-- A character; it may be split at if it comes from an unquoted value. -/
  | char (g : Glyph) (splits : Bool)
  /-- Quotes: the word is there even if nothing else is. -/
  | quotes
  /-- The border of two arguments. -/
  | border
  /-- No arguments: quotes around nothing else make no word. -/
  | absent
  deriving DecidableEq

/-- The character of a piece. -/
def Mark.char? : Mark → Option Char
  | .char g _ => some g.char
  | _ => none

/-- The pieces of a value. -/
def marksOf (quoted : Bool) (value : List Char) : List Mark :=
  value.map fun c => .char ⟨c, quoted⟩ !quoted

/-- The characters that values are split at. -/
def separators (m : Machine) : List Char := (m.variableOf "IFS".toList).getD [' ', '\t', '\n']

/-- The pieces of all arguments. -/
def argumentMarks (m : Machine) (quoted joined : Bool) : List Mark :=
  let each := m.arguments.map fun a => (if quoted then [Mark.quotes] else []) ++ marksOf quoted a
  let between := if quoted && joined then
      ((separators m).head?.map fun c => Mark.char ⟨c, true⟩ false).toList
    else [Mark.border]
  if each.isEmpty && quoted && !joined then [.absent] else between.intercalate each

/-- Expands parts; a failure comes with a message. -/
def expandParts : Nat → List Part → Machine → Except (List Char) (List Mark × Machine)
  | 0, _, _ => .error []
  | _, [], m => .ok ([], m)
  | fuel + 1, part :: parts, m => do
    let (marks, m) ←
      match part with
      | .literal quoted text =>
        let marks := text.map fun c => Mark.char ⟨c, quoted⟩ false
        pure ((if quoted then [.quotes] else []) ++ marks, m)
      | .sum quoted expression =>
        let (marks, m) ← expandParts fuel expression m
        let cs := marks.filterMap Mark.char?
        match Sum.evaluate m.number? cs with
        | .ok (value, changes) =>
          let m := changes.reverse.foldl (fun m c => m.assign c.1 (toString c.2).toList) m
          pure (marksOf quoted (toString value).toList, m)
        | .error message =>
          .error (charsOf ("arithmetic expression: " ++ message ++ ": ") ++
            quoteMark :: cs ++ [quoteMark])
      | .parameter quoted name used =>
        let value := m.value? name
        let filled (orEmpty : Bool) : Bool := match value with
          | some v => !(orEmpty && v.isEmpty)
          | none => false
        match used with
        | .value =>
          if name = ['@'] then pure (argumentMarks m quoted false, m)
          else if name = ['*'] then pure (argumentMarks m quoted true, m)
          else pure (marksOf quoted (value.getD []), m)
        | .length => pure (marksOf quoted (toString (value.getD []).length).toList, m)
        | .fallback orEmpty keeps word =>
          if filled orEmpty then pure (marksOf quoted (value.getD []), m)
          else do
            let (marks, m) ← expandParts fuel word m
            let text := marks.filterMap Mark.char?
            pure (marks, if keeps then m.assign name text else m)
        | .replacement orEmpty word =>
          if filled orEmpty then expandParts fuel word m else pure ([], m)
        | .demanded orEmpty word =>
          if filled orEmpty then pure (marksOf quoted (value.getD []), m)
          else do
            let (marks, _) ← expandParts fuel word m
            let text := marks.filterMap Mark.char?
            .error (name ++ charsOf ": " ++
              if text.isEmpty then charsOf "parameter not set" else text)
        | .trimmed atEnd longest pattern =>
          let (marks, m) ← expandParts fuel pattern m
          let glyphs := marks.filterMap fun k => match k with
            | .char g _ => some g
            | _ => none
          let trim := if atEnd then trimEnd else trimFront
          pure (marksOf quoted (trim longest glyphs (value.getD [])), m)
    let (more, m) ← expandParts fuel parts m
    return (marks ++ more, m)

/-- A bound for the nesting of parts. -/
def expansionFuel : Nat := 10000

/-- The words that pieces make, split at some characters. `current` is the word that has begun, and
`spaced` says that a blank ended the word before. -/
def split (at' : List Char) : Option (List Glyph) → Bool → List Mark → List (List Glyph)
  | current, _, [] => current.toList
  | current, spaced, .quotes :: marks => split at' (some (current.getD [])) spaced marks
  | current, spaced, .absent :: marks =>
    split at' (if current = some [] then none else current) spaced marks
  | current, _, .border :: marks => current.toList ++ split at' none false marks
  | current, spaced, .char g splits :: marks =>
    if splits && at'.contains g.char then
      if g.char.isWhitespace then current.toList ++ split at' none (spaced || current.isSome) marks
      else if current.isNone && spaced then split at' none false marks
      else current.getD [] :: split at' none false marks
    else split at' (some (current.getD [] ++ [g])) false marks

/-- Expands words to separate words. -/
def fields : List Word → Machine → Except (List Char) (List (List Char) × Machine)
  | [], m => .ok ([], m)
  | w :: ws, m => do
    let (marks, m) ← expandParts expansionFuel w m
    let here := (split (separators m) none false marks).map (·.map (·.char))
    let (more, m) ← fields ws m
    return (here ++ more, m)

/-- Expands a word to one pattern. -/
def patternOf (w : Word) (m : Machine) : Except (List Char) (List Glyph × Machine) := do
  let (marks, m) ← expandParts expansionFuel w m
  return (marks.filterMap fun k => match k with
    | .char g _ => some g
    | .border => some ⟨' ', true⟩
    | .quotes | .absent => none, m)

/-- Expands a word to one text. -/
def textOfWord (w : Word) (m : Machine) : Except (List Char) (List Char × Machine) := do
  let (glyphs, m) ← patternOf w m
  return (glyphs.map (·.char), m)

end ProximityLab.Script
