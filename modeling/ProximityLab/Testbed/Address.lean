import ProximityLab.Testbed.Error
import ProximityLab.Text.CharRange
import ProximityLab.Text.Lines

/-!
# Node addresses

An address names a node by its architecture, a number and a site, as in `m3-102.lille.iot-lab.info`.
`findArchi?` finds the first address inside a text and gives its architecture, the longest one if
the dashes allow several readings; `boardOfAddress` is the board with that architecture. When nodes
are assigned, an address counts for a board already when it begins with the board's architecture
(`isAddressOf`).
-/

namespace ProximityLab.Testbed

/-- A character of architecture names. -/
def isArchiChar (c : Char) : Bool := c.isAlphanum || c == '-'

/-- The end of every address. -/
def domain : List Char := ".iot-lab.info".toList

/-- What follows the architecture begins with a dash, a number, a site and the domain. -/
def beginsWithNumberAndSite : List Char → Bool
  | '-' :: r =>
    let afterNumber := r.dropWhile Text.isDigit
    match r.takeWhile Text.isDigit, afterNumber with
    | _ :: _, '.' :: s =>
      !(s.takeWhile Char.isLower).isEmpty && domain.isPrefixOf (s.dropWhile Char.isLower)
    | _, _ => false
  | _ => false

/-- The architecture of an address that begins here: of the beginnings with at most `n` characters
the longest that a number and a site follow. -/
def archiUpTo? (cs : List Char) : Nat → Option (List Char)
  | 0 => none
  | n + 1 =>
    if beginsWithNumberAndSite (cs.drop (n + 1)) then some (cs.take (n + 1)) else archiUpTo? cs n

/-- The architecture of the first address inside a text. -/
def findArchi? : List Char → Option (List Char)
  | [] => none
  | c :: cs =>
    match archiUpTo? (c :: cs) ((c :: cs).takeWhile isArchiChar).length with
    | some archi => some archi
    | none => findArchi? cs

/-- The board of the node at an address. -/
def boardOfAddress (address : String) : Except TestbedError Board :=
  match (findArchi? address.toList).bind fun archi => boardOfArchi? (String.ofList archi) with
  | some b => .ok b
  | none => .error (.invalidAddress address)

/-- An address that is assigned to a request for a board. -/
def isAddressOf (board address : String) : Bool :=
  (board? board).any fun b => Text.startsWith b.archi address

/-- A site that the testbed has. -/
def checkSite (site : String) : Except TestbedError Unit :=
  if sites.contains site then .ok () else .error (.unknownSite site)

/-- An address on a site and, if a board is given, of that board. -/
def checkAddress (address site : String) (board : Option String) : Except TestbedError Unit := do
  if !Text.contains site address then throw (.siteMismatch address site)
  match board with
  | some b =>
    if (← boardOfAddress address).name ≠ b then throw (.boardMismatch address b)
  | none => return

end ProximityLab.Testbed
