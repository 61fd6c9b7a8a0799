import ProximityLab.Toml.Table

/-!
# Records in TOML files

A record has named members, all of which may be missing. A file gives it as a table (unknown members
are ignored) or as an array of its members in their order. `Value.members?` finds the members; the
readers of member values follow. A date has no members of its own.
-/

namespace ProximityLab.Toml

/-- The members of a record in their order. -/
abbrev Schema := List String

/-- The values of a record's members, in the order of its schema. -/
def Value.members? (schema : Schema) : Value → Option (List (Option Value))
  | .table entries => some (schema.map fun name => (entries.find? (·.1 == name)).map (·.2))
  | .array items => some ((List.range schema.length).map fun i => items[i]?)
  | .moment => some (schema.map fun _ => none)
  | _ => none

/-- A text. -/
def Value.toText? : Value → Option String
  | .text s => some s
  | _ => none

/-- A truth value. -/
def Value.toBool? : Value → Option Bool
  | .bool b => some b
  | _ => none

/-- A natural number below a bound. -/
def Value.toNat? (bound : Nat) : Value → Option Nat
  | .int i => if 0 ≤ i && i.toNat < bound then some i.toNat else none
  | _ => none

/-- A number. -/
def Value.toNumber? : Value → Option Binary64
  | .int i => some (.ofInt i)
  | .float x => some x
  | _ => none

/-- The value of a member, or what stands for a missing one. -/
def member {α : Type} (f : Value → Option α) (default : α) : Option Value → Option α
  | some v => f v
  | none => some default

end ProximityLab.Toml
