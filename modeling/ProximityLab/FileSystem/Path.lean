import ProximityLab.Text.Lines

/-!
# Paths

A path is a text: pieces with slashes between them. `Path.join` puts a path behind a directory,
`Path.parent?` takes the last piece off, `Path.name?` and `Path.stem?` give the last piece with and
without its extension. Empty pieces and single dots inside a path have no meaning.
-/

namespace ProximityLab.Path

/-- The path starts at the root. -/
def isAbsolute (path : String) : Bool := path.toList.head? == some '/'

/-- A path behind a directory; an absolute path stands for itself. -/
def join (dir path : String) : String :=
  if isAbsolute path then path
  else if dir.isEmpty || dir.toList.getLast? == some '/' then dir ++ path
  else dir ++ "/" ++ path

/-- A piece without a meaning of its own. -/
def isVoid (piece : List Char) : Bool := piece.isEmpty || piece == ['.']

/-- Takes void pieces off the end. -/
def dropVoid (ps : List (List Char)) : List (List Char) := (ps.reverse.dropWhile isVoid).reverse

/-- Takes pieces without a meaning off the end. A dot in front of a relative path stays. -/
def trimPieces (absolute : Bool) : List (List Char) → List (List Char)
  | [] => []
  | p :: ps => if !absolute && p == ['.'] then p :: dropVoid ps else dropVoid (p :: ps)

/-- The pieces of a path behind the root, without void ones at the end. -/
def pieces (path : String) : List (List Char) :=
  let absolute := isAbsolute path
  let body := if absolute then path.toList.drop 1 else path.toList
  trimPieces absolute (Text.splitOn '/' body)

/-- The path without its last piece; the root and the empty path have no parent. -/
def parent? (path : String) : Option String :=
  let absolute := isAbsolute path
  let ps := pieces path
  if ps.isEmpty then none
  else
    let body := ['/'].intercalate (trimPieces absolute ps.dropLast)
    some (String.ofList (if absolute then '/' :: body else body))

/-- The last piece, if it is a name. -/
def name? (path : String) : Option (List Char) :=
  (pieces path).getLast?.filter fun p => !(isVoid p || p == ['.', '.'])

/-- The last piece without its extension; a dot in front starts no extension. -/
def stem? (path : String) : Option String :=
  (name? path).map fun name =>
    let before := (name.reverse.dropWhile (· != '.')).drop 1 |>.reverse
    String.ofList (if before.isEmpty then name else before)

/-- The steps that a path takes through directories. -/
def steps (path : String) : List String :=
  ((Text.splitOn '/' path.toList).filter fun p => !p.isEmpty).map String.ofList

/-- The path ends in a way that only a directory can stand for. -/
def endsInDirectory (path : String) : Bool :=
  match (Text.splitOn '/' path.toList).getLast? with
  | some p => isVoid p || p == ['.', '.']
  | none => false

end ProximityLab.Path
