import ProximityLab.Number.FloatReader
import ProximityLab.Yaml.Node

/-!
# YAML values

A plain scalar denotes null, a truth value, an integer, a float or a text by the way it is written
(`Value.ofPlain?`); a quoted one denotes a text; a tag of the core schema overrides both.
`Value.resolve?` replaces aliases by what they repeat, within two limits: collections do not nest
deeper than `nestingLimit`, and aliases are not followed more often than `repetitionLimit` times for
each mark of the document.
-/

namespace ProximityLab.Yaml

/-- What a document denotes. -/
inductive Value where
  | null
  | bool (b : Bool)
  | int (i : Int)
  | float (x : Binary64)
  | text (s : String)
  | sequence (items : List Value)
  | mapping (entries : List (Value × Value))
  deriving Inhabited

namespace Value

/-- The word for null. -/
def isNullWord (s : String) : Bool := ["null", "Null", "NULL", "~"].contains s

/-- The truth value that a word denotes. -/
def boolWord? (s : String) : Option Bool :=
  if ["true", "True", "TRUE"].contains s then some true
  else if ["false", "False", "FALSE"].contains s then some false
  else none

/-- The value of a digit in a base of at most sixteen. -/
def baseDigit? (base : Nat) (c : Char) : Option Nat := (hexDigit? c).filter (· < base)

/-- The number that digits of a base denote; there has to be one. -/
def ofDigits? (base : Nat) (cs : List Char) : Option Nat :=
  if cs.isEmpty then none
  else cs.foldlM (fun n c => (baseDigit? base c).map (base * n + ·)) 0

/-- Digits with a zero in front and without a point: a text, although digits only. -/
def isPaddedDigits (cs : List Char) : Bool :=
  match (splitSign cs).2 with
  | '0' :: r => !r.isEmpty && r.all Numeral.isDigit
  | _ => false

/-- The magnitude of an integer without its sign: hexadecimal, octal, binary or decimal. -/
def magnitude? : List Char → Option Nat
  | '0' :: 'x' :: r => ofDigits? 16 r
  | '0' :: 'o' :: r => ofDigits? 8 r
  | '0' :: 'b' :: r => ofDigits? 2 r
  | cs => if isPaddedDigits cs then none else ofDigits? 10 cs

/-- The integer that a scalar denotes, if it fits 128 bits. -/
def int? (cs : List Char) : Option Int :=
  let (negative, r) := splitSign cs
  match magnitude? r with
  | some n =>
    if negative then if n ≤ 0x80000000000000000000000000000000 then some (-(n : Int)) else none
    else if n < 0x100000000000000000000000000000000 then some n else none
  | none => none

/-- The float that a scalar denotes. A number that is too large is none. -/
def float? (cs : List Char) : Option Binary64 :=
  match String.ofList cs with
  | ".inf" | ".Inf" | ".INF" | "+.inf" | "+.Inf" | "+.INF" => some .infinity
  | "-.inf" | "-.Inf" | "-.INF" => some Binary64.infinity.neg
  | ".nan" | ".NaN" | ".NAN" => some .nan
  | _ => (Binary64.ofText? cs).filter (·.isFinite)

/-- An integer that is kept as one: it fits 64 bits, with or without a sign. -/
def fits (i : Int) : Bool := -0x8000000000000000 ≤ i && i < 0x10000000000000000

/-- What a plain scalar denotes; `none` for an integer between 64 and 128 bits. -/
def ofPlain? (s : String) : Option Value :=
  if s.isEmpty || isNullWord s then some .null
  else
    match boolWord? s with
    | some b => some (.bool b)
    | none =>
      match int? s.toList with
      | some i => if fits i then some (.int i) else none
      | none =>
        if isPaddedDigits s.toList then some (.text s)
        else
          match float? s.toList with
          | some x => some (.float x)
          | none => some (.text s)

/-- A tag of the application, for which there is no value. -/
def isLocalTag (tag : Option String) : Bool := tag.any fun t => t.toList.head? == some '!'

/-- What a scalar denotes. -/
def ofScalar? (tag : Option String) (plain : Bool) (s : String) : Option Value :=
  match tag with
  | none => if plain then ofPlain? s else some (.text s)
  | some "tag:yaml.org,2002:null" => if isNullWord s then some .null else none
  | some "tag:yaml.org,2002:bool" => (boolWord? s).map .bool
  | some "tag:yaml.org,2002:int" => ((int? s.toList).filter fits).map .int
  | some "tag:yaml.org,2002:float" => (float? s.toList).map .float
  | some _ => if isLocalTag tag then none else some (.text s)

/-- Collections that enclose each other may not be deeper than this. -/
def nestingLimit : Nat := 128

/-- Aliases may be followed this often for each mark of a document. -/
def repetitionLimit : Nat := 100

mutual

/-- The value of a node, with `room` levels of collections left. The state counts the aliases
that may still be followed. -/
def resolve? (room : Nat) : Node → StateT Nat Option Value
  | .alias target => do
    match ← get with
    | 0 => failure
    | left + 1 =>
      set left
      resolve? room target
  | .scalar tag plain s => ofScalar? tag plain s
  | .sequence tag items =>
    match room with
    | 0 => failure
    | room + 1 => if isLocalTag tag then failure else return .sequence (← resolveItems? room items)
  | .mapping tag entries =>
    match room with
    | 0 => failure
    | room + 1 =>
      if isLocalTag tag then failure else return .mapping (← resolveEntries? room entries)

/-- The values of the items of a sequence. -/
def resolveItems? (room : Nat) : List Node → StateT Nat Option (List Value)
  | [] => return []
  | n :: ns => do
    let v ← resolve? room n
    return v :: (← resolveItems? room ns)

/-- The values of the entries of a mapping. -/
def resolveEntries? (room : Nat) : List (Node × Node) → StateT Nat Option (List (Value × Value))
  | [] => return []
  | (k, v) :: es => do
    let k ← resolve? room k
    let v ← resolve? room v
    return (k, v) :: (← resolveEntries? room es)

end

/-- The items of the list that a document is: those of a sequence, whatever its tag, and none of an
empty document. -/
def listOfNode? : Node → Option (List Value)
  | .sequence tag items =>
    let budget := repetitionLimit * (Node.sequence tag items).marks
    ((resolveItems? (nestingLimit - 1) items).run budget).map (·.1)
  | .scalar none true s => if s.isEmpty || isNullWord s then some [] else none
  | .scalar (some "tag:yaml.org,2002:null") true s => if isNullWord s then some [] else none
  | .scalar (some _) true s => if s.isEmpty then some [] else none
  | _ => none

/-- The items of the list that a text holds; an empty stream holds none. -/
def readList? (text : String) : Option (List Value) := do
  let tokens ← Token.scan? text
  match ← Node.ofTokens? tokens with
  | some node => listOfNode? node
  | none => return []

end Value

end ProximityLab.Yaml
