/-!
# Lines of a text

A line ends at a line feed; one carriage return directly before the line feed belongs to the line
ending. What follows the last line feed is a line of its own unless it is empty.
-/

namespace ProximityLab.Text

/-- Removes one carriage return at the end. -/
def dropReturn (cs : List Char) : List Char :=
  if cs.getLast? = some '\r' then cs.dropLast else cs

/-- Splits at the separator; the pieces between, before and after, empty ones included. -/
def splitOn {α : Type} [DecidableEq α] (sep : α) : List α → List (List α)
  | [] => [[]]
  | c :: cs =>
    if c = sep then [] :: splitOn sep cs
    else match splitOn sep cs with
      | [] => [[c]]
      | piece :: pieces => (c :: piece) :: pieces

/-- The lines of a list of characters. -/
def linesOf (cs : List Char) : List (List Char) :=
  let pieces := splitOn '\n' cs
  let last := pieces.getLast?.getD []
  pieces.dropLast.map dropReturn ++ if last.isEmpty then [] else [last]

/-- The lines of a text. -/
def lines (s : String) : List String := (linesOf s.toList).map String.ofList

/-- The pieces of a text between separators. -/
def split (sep : Char) (s : String) : List String := (splitOn sep s.toList).map String.ofList

/-- Whether `needle` occurs in the characters. -/
def containsChars (needle : List Char) : List Char → Bool
  | [] => needle.isEmpty
  | c :: cs => needle.isPrefixOf (c :: cs) || containsChars needle cs

/-- Whether one text occurs in another. -/
def contains (needle s : String) : Bool := containsChars needle.toList s.toList

/-- Whether a text starts with another. -/
def startsWith (start s : String) : Bool := start.toList.isPrefixOf s.toList

end ProximityLab.Text
