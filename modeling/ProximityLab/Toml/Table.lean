import ProximityLab.Number.Binary64

/-!
# TOML values and tables

`Value` is what a TOML file denotes. While a file is read its tables grow: an `Entry` remembers how
a table came about, because that decides who may add to it. `update` walks a path of keys, creating
tables on the way, and applies a change where the path ends; `addValue?`, `openTable?` and
`openItem?` are the three changes that a line of a file makes.
-/

namespace ProximityLab.Toml

/-- What a file denotes. -/
inductive Value where
  | text (s : String)
  | int (i : Int)
  | float (x : Binary64)
  | bool (b : Bool)
  /-- A date, a time or both. -/
  | moment
  | array (items : List Value)
  | table (entries : List (String × Value))
  deriving Inhabited

/-- How a table came about. -/
inductive Origin where
  /-- It has a header of its own, or is the file. -/
  | header
  /-- It is named on the way to another table's header. -/
  | path
  /-- It is named in front of a dot in a key. -/
  | dotted
  /-- It is written between braces. -/
  | inline
  deriving DecidableEq

/-- What stands under a key while a file is read. -/
inductive Entry where
  | value (v : Value)
  | table (origin : Origin) (entries : List (String × Entry))
  /-- An array of tables, the last one in front. -/
  | tables (items : List (List (String × Entry)))
  deriving Inhabited

/-- The entries of a table that grows. -/
abbrev Entries := List (String × Entry)

mutual

/-- What an entry denotes. -/
def Entry.denote : Entry → Value
  | .value v => v
  | .table _ es => .table (denoteEntries es)
  | .tables ts => .array (denoteTables ts [])

/-- What the entries of a table denote. -/
def denoteEntries : List (String × Entry) → List (String × Value)
  | [] => []
  | (k, e) :: es => (k, e.denote) :: denoteEntries es

/-- What an array of tables denotes, in the order of the file. -/
def denoteTables : List (List (String × Entry)) → List Value → List Value
  | [], behind => behind
  | t :: ts, behind => denoteTables ts (.table (denoteEntries t) :: behind)

end

/-- The entry under a key. -/
def lookup (key : String) (es : Entries) : Option Entry := (es.find? (·.1 == key)).map (·.2)

/-- Puts an entry under a key; it replaces one that is there. -/
def put (key : String) (e : Entry) (es : Entries) : Entries :=
  if es.any (·.1 == key) then es.map fun x => if x.1 == key then (key, e) else x
  else es ++ [(key, e)]

/-- A change of the entries of a table. -/
abbrev Change := Origin → Entries → Option Entries

/-- Applies a change to the table at the end of a path. Tables on the way are created as needed. The
keys of a line may only pass tables that no header and no braces have made, except the items of an
array of tables. -/
def update (byKey : Bool) (change : Change) : List String → Change
  | [], origin, es => change origin es
  | key :: keys, _, es =>
    match lookup key es with
    | none =>
      let origin : Origin := if byKey then .dotted else .path
      (update byKey change keys origin []).map fun inner => put key (.table origin inner) es
    | some (.table origin inner) =>
      if origin = .inline || (byKey && origin = .header) then none
      else (update byKey change keys origin inner).map fun inner => put key (.table origin inner) es
    | some (.tables (last :: earlier)) =>
      (update byKey change keys .header last).map fun last => put key (.tables (last :: earlier)) es
    | some _ => none

/-- Adds a value under a key that is not taken. `direct` tells whether no dots led to the table; a
table that dots have made is reached through dots only. -/
def addDirect? (key : String) (e : Entry) (direct : Bool) : Change := fun origin es =>
  if (origin = .dotted) = direct || (lookup key es).isSome then none else some (es ++ [(key, e)])

/-- Adds a value under dotted keys. -/
def addValue? (keys : List String) (e : Entry) : Change := fun origin es =>
  match keys.getLast? with
  | some key => update true (addDirect? key e (keys.length == 1)) keys.dropLast origin es
  | none => none

/-- Opens the table of a header, which may have been named on the way to another one. -/
def openTable? (keys : List String) : Change := fun origin es =>
  match keys.getLast? with
  | some key =>
    update false (fun _ es =>
      match lookup key es with
      | none => some (put key (.table .header []) es)
      | some (.table .path inner) => some (put key (.table .header inner) es)
      | some _ => none) keys.dropLast origin es
  | none => none

/-- Opens the next table of an array of tables. -/
def openItem? (keys : List String) : Change := fun origin es =>
  match keys.getLast? with
  | some key =>
    update false (fun _ es =>
      match lookup key es with
      | none => some (put key (.tables [[]]) es)
      | some (.tables ts) => some (put key (.tables ([] :: ts)) es)
      | some _ => none) keys.dropLast origin es
  | none => none

end ProximityLab.Toml
