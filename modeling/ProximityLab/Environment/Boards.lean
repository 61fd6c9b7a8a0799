import ProximityLab.Environment.Basic
import ProximityLab.Yaml.Value

/-!
# Boards files

A boards file lists environments. An entry gives the variables of a device, or the variables under
`env` and the coordinates under `position`. `Environment.ofBoards?` reads the file; variables are
scalars and are kept as text.
-/

namespace ProximityLab

open Yaml (Value)

/-- The text of an integer; one beyond the signed range of 64 bits is read as a float. -/
def integerText (i : Int) : String :=
  if i < 0x8000000000000000 then toString i else FloatStyle.plain.render (.ofInt i)

/-- The text of a variable's value. -/
def scalarText? : Value → Option String
  | .bool b => some (if b then "true" else "false")
  | .int i => some (integerText i)
  | .float x => some (FloatStyle.plain.render x)
  | .text s => some s
  | _ => none

/-- A name and its value. -/
def namedScalar? (entry : Value × Value) : Option (String × String) :=
  match entry with
  | (.text name, value) => (scalarText? value).map (name, ·)
  | _ => none

/-- The variables of a mapping from names to scalars. -/
def variablesOf? : Value → Option Variables
  | .mapping entries => (entries.mapM namedScalar?).map .ofList
  | _ => none

/-- A coordinate. -/
def coordinate? : Value → Option Binary64
  | .int i => some (.ofInt i)
  | .float x => some x
  | _ => none

/-- Coordinates, if any are given. -/
def position? : Value → Option (Option Position)
  | .null => some none
  | .sequence [x, y, z] => do
    return some ⟨← coordinate? x, ← coordinate? y, ← coordinate? z⟩
  | _ => none

/-- The members of an entry that gives a position. -/
inductive EntryMember where
  | env
  | position
  | other
  deriving DecidableEq

/-- The member that a key denotes: by its name or by its place. -/
def entryMember? : Value → Option EntryMember
  | .text "env" => some .env
  | .text "position" => some .position
  | .text _ => some .other
  | .int 0 => some .env
  | .int 1 => some .position
  | .int i => if 0 ≤ i then some .other else none
  | _ => none

/-- The values under a member of an entry. -/
def valuesUnder (m : EntryMember) (entries : List (EntryMember × Value)) : List Value :=
  (entries.filter (·.1 = m)).map (·.2)

/-- An entry with its variables under `env`. -/
def placedEntry? : Value → Option Environment
  | .mapping entries => do
    let members ← entries.mapM fun e => (entryMember? e.1).map (·, e.2)
    match valuesUnder .env members, valuesUnder .position members with
    | [vars], [] => return ⟨← variablesOf? vars, none⟩
    | [vars], [position] => return ⟨← variablesOf? vars, ← position? position⟩
    | _, _ => none
  | _ => none

/-- An entry of either form. -/
def boardEntry? (v : Value) : Option Environment :=
  match placedEntry? v with
  | some e => some e
  | none => (variablesOf? v).map (⟨·, none⟩)

/-- The environments of a boards file. -/
def Environment.ofBoards? (text : String) : Option (List Environment) :=
  (Value.readList? text).bind fun entries => entries.mapM boardEntry?

end ProximityLab
