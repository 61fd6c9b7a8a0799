import ProximityLab.Json.Reader

/-!
# Records in JSON documents

A record has named members in a fixed order, some of which may be missing. A document gives it
either as an object (unknown members are ignored, a member given twice is refused) or as an array of
its members in their order (missing ones at the end only). `Json.membersOf?` brings both forms to
one list of members; the readers of member values follow.
-/

namespace ProximityLab.Json

/-- A member of a record: its name, and whether it may be missing. -/
structure Member where
  name : String
  optional : Bool
  deriving DecidableEq

/-- A member that has to be there. -/
def Member.required (name : String) : Member := ⟨name, false⟩

/-- A member that may be missing. -/
def Member.mayMiss (name : String) : Member := ⟨name, true⟩

/-- The value of the member `name`, if it occurs; `none` if it occurs twice. -/
def lookupOnce? (name : String) (members : List (Option String × Json)) : Option (Option Json) :=
  match members.filter (·.1 == some name) with
  | [] => some none
  | [m] => some (some m.2)
  | _ => none

/-- The members of a record given as an object. -/
def objectMembers? (schema : List Member) (members : List (Option String × Json)) :
    Option (List (Option Json)) :=
  if members.all (·.1.isSome) then
    schema.mapM fun m => do
      match ← lookupOnce? m.name members with
      | some j => some (some j)
      | none => if m.optional then some none else none
  else none

/-- The members of a record given as an array. -/
def arrayMembers? : List Member → List Json → Option (List (Option Json))
  | [], [] => some []
  | [], _ :: _ => none
  | m :: ms, [] => if m.optional then (arrayMembers? ms []).map (none :: ·) else none
  | _ :: ms, j :: js => (arrayMembers? ms js).map (some j :: ·)

/-- The members of a record, one entry for each in the order of the schema. -/
def membersOf? (schema : List Member) : Json → Option (List (Option Json))
  | .object members => objectMembers? schema members
  | .array items => arrayMembers? schema items
  | _ => none

/-! ## Member values -/

/-- A text. -/
def toText? : Json → Option String
  | .string t => t
  | _ => none

/-- A truth value. -/
def toBool? : Json → Option Bool
  | .bool b => some b
  | _ => none

/-- An integer between two bounds. -/
def toInt? (lo hi : Int) : Json → Option Int
  | .number n => n.toInt?.filter fun i => lo ≤ i ∧ i ≤ hi
  | _ => none

/-- A natural number of at most `width` bits. -/
def toNat? (width : Nat) (j : Json) : Option Nat := (j.toInt? 0 (Nat.pow 2 width - 1)).map Int.toNat

/-- An integer in two's complement of 64 bits. -/
def toInt64? (j : Json) : Option Int := j.toInt? (-0x8000000000000000) 0x7fffffffffffffff

/-- A finite double. -/
def toFinite? : Json → Option Binary64
  | .number n => n.toFinite?
  | _ => none

/-- A list. -/
def toList? {α : Type} (f : Json → Option α) : Json → Option (List α)
  | .array items => items.mapM f
  | _ => none

/-- A member that has to be there. -/
def need {α : Type} (f : Json → Option α) : Option Json → Option α
  | some j => f j
  | none => none

/-- A member that may be missing or null. -/
def maybe {α : Type} (f : Json → Option α) : Option Json → Option (Option α)
  | none => some none
  | some .null => some none
  | some j => (f j).map some

/-- A member that may be missing, then a default stands for it. -/
def orElse {α : Type} (f : Json → Option α) (default : α) : Option Json → Option α
  | none => some default
  | some j => f j

/-- A name of a fixed choice: a text, or an object whose only member has that name and is null. -/
def choice? {α : Type} (f : String → Option α) : Json → Option α
  | .string (some s) => f s
  | .object [(some s, .null)] => f s
  | _ => none

end ProximityLab.Json
