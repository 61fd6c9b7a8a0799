import ProximityLab.Number.FloatText

/-!
# JSON documents

`Json` is a document as it is written: numbers keep their digits, members keep their order and their
repetitions. A string literal may pair its surrogate escapes wrongly; such a literal is well-formed
but denotes no text, and stands as `none`.

A document does not restrict nesting, number ranges or literals; `Json.settle?` is the stricter
reading as a value: bounded nesting, finite numbers, proper literals, and of members with the same
name the last one.
-/

namespace ProximityLab

/-- A JSON document as it is written. -/
inductive Json where
  | null
  | bool (b : Bool)
  | number (n : Numeral)
  | string (text : Option String)
  | array (items : List Json)
  | object (members : List (Option String × Json))
  deriving Inhabited

namespace Json

/-- A string literal that denotes a text. -/
def text (s : String) : Json := .string (some s)

/-- A natural number. -/
def nat (n : Nat) : Json := .number (.ofNat n)

/-- An integer. -/
def int (i : Int) : Json := .number (.ofInt i)

/-- A double; one that is not finite has no number and is written as null. -/
def float (x : Binary64) : Json := if x.isFinite then .number (FloatStyle.json.numeral x) else .null

/-- An object with the given members. -/
def obj (members : List (String × Json)) : Json := .object (members.map fun m => (some m.1, m.2))

/-- A value that may be absent, then null. -/
def nullable {α : Type} (f : α → Json) : Option α → Json
  | some a => f a
  | none => .null

/-- The members that have a value, in order. -/
def present (members : List (String × Option Json)) : List (String × Json) :=
  members.filterMap fun m => m.2.map (m.1, ·)

/-- Containers that enclose each other may not be deeper than this in a value. -/
def nestingLimit : Nat := 127

/-- Puts a member behind others; an earlier one of the same name goes. -/
def putLast (k : String) (v : Json) (ms : List (Option String × Json)) :
    List (Option String × Json) :=
  ms.filter (fun m => m.1 != some k) ++ [(some k, v)]

mutual

/-- The document as a value, with `room` levels of containers left: `none` if a number is too
large, a literal denotes no text, or containers nest too deeply. -/
def settleWithin? (room : Nat) : Json → Option Json
  | .null => some .null
  | .bool b => some (.bool b)
  | .number n => if n.toBinary64.isFinite then some (.number n) else none
  | .string t => if t.isSome then some (.string t) else none
  | .array items =>
    match room with
    | 0 => none
    | room + 1 => (settleItems? room items).map .array
  | .object members =>
    match room with
    | 0 => none
    | room + 1 => (settleMembers? room [] members).map .object

/-- The items of an array as values. -/
def settleItems? (room : Nat) : List Json → Option (List Json)
  | [] => some []
  | j :: js => do
    let v ← settleWithin? room j
    let vs ← settleItems? room js
    return v :: vs

/-- The members of an object as values, behind those already seen. -/
def settleMembers? (room : Nat) (seen : List (Option String × Json)) :
    List (Option String × Json) → Option (List (Option String × Json))
  | [] => some seen
  | (k, j) :: ms => do
    let k ← k
    let v ← settleWithin? room j
    settleMembers? room (putLast k v seen) ms

end

/-- The document as a value. -/
def settle? (j : Json) : Option Json := settleWithin? nestingLimit j

end Json

end ProximityLab
