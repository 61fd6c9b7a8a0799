import ProximityLab.Json.Basic

/-!
# Writing JSON

`Json.render` writes a document compactly: no blanks, members in their order, non-ASCII characters
as they are, quotes, backslashes and controls escaped.
-/

namespace ProximityLab.Json

/-- One character inside a string literal. -/
def escapeChar (c : Char) : List Char :=
  if c.toNat = 0x22 then ['\\', c]
  else if c = '\\' then ['\\', '\\']
  else if c.toNat = 8 then ['\\', 'b']
  else if c.toNat = 12 then ['\\', 'f']
  else if c = '\n' then ['\\', 'n']
  else if c = '\r' then ['\\', 'r']
  else if c = '\t' then ['\\', 't']
  else if c.toNat < 0x20 then
    ['\\', 'u', '0', '0', Nat.digitChar (c.toNat / 16), Nat.digitChar (c.toNat % 16)]
  else [c]

/-- The quotation mark. -/
def quote : Char := Char.ofNat 0x22

/-- A string literal for a text. -/
def literal (cs : List Char) : List Char := quote :: (cs.flatMap escapeChar ++ [quote])

/-- A literal that denotes no text: a surrogate without a partner. -/
def strayLiteral : List Char := quote :: (['\\', 'u', 'd', '8', '0', '0'] ++ [quote])

/-- A literal for what a literal denotes. -/
def literalOf : Option String → List Char
  | some s => literal s.toList
  | none => strayLiteral

def openBrace : Char := Char.ofNat 0x7B
def closeBrace : Char := Char.ofNat 0x7D

mutual

/-- The characters of a document. -/
def chars : Json → List Char
  | .null => ['n', 'u', 'l', 'l']
  | .bool true => ['t', 'r', 'u', 'e']
  | .bool false => ['f', 'a', 'l', 's', 'e']
  | .number n => n.chars
  | .string t => literalOf t
  | .array [] => ['[', ']']
  | .array (j :: js) => '[' :: (chars j ++ itemChars js)
  | .object [] => [openBrace, closeBrace]
  | .object ((k, j) :: ms) => openBrace :: (literalOf k ++ ':' :: (chars j ++ memberChars ms))

/-- The items of an array behind the first, and the closing bracket. -/
def itemChars : List Json → List Char
  | [] => [']']
  | j :: js => ',' :: (chars j ++ itemChars js)

/-- The members of an object behind the first, and the closing brace. -/
def memberChars : List (Option String × Json) → List Char
  | [] => [closeBrace]
  | (k, j) :: ms => ',' :: (literalOf k ++ ':' :: (chars j ++ memberChars ms))

end

/-- The text of a document. -/
def render (j : Json) : String := String.ofList j.chars

end ProximityLab.Json
