import ProximityLab.Json.Record
import ProximityLab.Telemetry.Tag
import ProximityLab.Text.Upper
import ProximityLab.Text.Utf8

/-!
# Telemetry samples

While an epoch runs, a device prints one telemetry record per line: an object, or an array of
objects whose first element carries the tag and the base time. `Sample.ofElements?` turns the
elements of a record into a sample, `Sample.read?` reads a line.

Times are 64-bit integers: `Int64Range` is the range, and a record in which a time that is used
leaves it is no sample.
-/

namespace ProximityLab

/-- The integers of 64 bits in two's complement. -/
def Int64Range (i : Int) : Prop := -0x8000000000000000 ≤ i ∧ i < 0x8000000000000000

instance : DecidablePred Int64Range := fun _ => inferInstanceAs (Decidable (_ ∧ _))

/-- A sum, if it stays within 64 bits. -/
def addTimes? (a b : Int) : Option Int := if Int64Range (a + b) then some (a + b) else none

/-- What a measurement is about. -/
inductive Quantity where
  | rssi
  | distance
  | lineOfSight
  deriving DecidableEq, Repr

namespace Quantity

/-- The name of a quantity in records. -/
def name : Quantity → String
  | rssi => "rssi"
  | distance => "d_cm"
  | lineOfSight => "los"

/-- The quantity of a name. -/
def ofName? (s : String) : Option Quantity :=
  if s = "rssi" then some rssi
  else if s = "d_cm" then some distance
  else if s = "los" then some lineOfSight
  else none

end Quantity

/-- One element of a telemetry record as it is printed. -/
structure Element where
  tag : Option String
  name : String
  value : Binary64
  unit : String
  /-- Base time in milliseconds, shared by all elements of a record. -/
  base : Option Int
  /-- Offset to the base time in milliseconds. -/
  offset : Option Int
  deriving DecidableEq

/-- One scalar measurement with its time. -/
structure Measurement where
  quantity : Quantity
  value : Binary64
  unit : String
  time : Int
  deriving DecidableEq

/-- All that one line reported about one neighbor. -/
structure Sample where
  radio : Radio
  neighbor : String
  /-- The reporting node, for tags that name one. -/
  node : Option String
  subsystem : String
  time : Int
  measurements : List Measurement
  deriving DecidableEq

namespace Element

/-- The members of an element, in their order. -/
def schema : List Json.Member :=
  [.mayMiss "bn", .required "n", .required "v", .required "u", .mayMiss "bt", .mayMiss "t"]

/-- Reads an element. -/
def ofJson? (j : Json) : Option Element := do
  match ← j.membersOf? schema with
  | [bn, n, v, u, bt, t] =>
    return {
      tag := ← Json.maybe Json.toText? bn
      name := ← Json.need Json.toText? n
      value := ← Json.need Json.toFinite? v
      unit := ← Json.need Json.toText? u
      base := ← Json.maybe Json.toInt64? bt
      offset := ← Json.maybe Json.toInt64? t }
  | _ => none

/-- The measurement of an element whose quantity is known, at its offset to the base time. -/
def measure? (base : Int) (e : Element) (q : Quantity) : Option Measurement :=
  (addTimes? (e.offset.getD 0) base).map fun time => ⟨q, e.value, e.unit, time⟩

end Element

namespace Sample

/-- The measurements of a record: elements of an unknown name are passed over. -/
def measurements? (base : Int) : List Element → Option (List Measurement)
  | [] => some []
  | e :: es =>
    match Quantity.ofName? e.name with
    | none => measurements? base es
    | some q => do
      let m ← e.measure? base q
      let ms ← measurements? base es
      return m :: ms

/-- The sample of a record. The first element carries the tag and the base time of all. -/
def ofElements? : List Element → Option Sample
  | [] => none
  | first :: rest => do
    let tag ← Tag.parse? (← first.tag)
    let base := first.base.getD 0
    let measurements ← measurements? base (first :: rest)
    let time ← addTimes? (first.offset.getD 0) base
    return ⟨tag.radio, tag.neighbor, tag.node, tag.subsystem, time, measurements⟩

/-- The sample of a document: an array of elements or a single one. -/
def ofDocument? (j : Json) : Option Sample := do
  match ← j.settle? with
  | .array items => ofElements? (← items.mapM Element.ofJson?)
  | .object members => ofElements? [← Element.ofJson? (.object members)]
  | _ => none

/-- Reads a line. -/
def read? (line : String) : Option Sample := Json.read? line >>= ofDocument?

/-- The value of the first measurement of a quantity. -/
def value? (s : Sample) (q : Quantity) : Option Binary64 :=
  (s.measurements.find? (·.quantity = q)).map (·.value)

/-- The signal strength. -/
def rssi? (s : Sample) : Option Binary64 := s.value? .rssi

/-- The distance in centimetres. -/
def distance? (s : Sample) : Option Binary64 := s.value? .distance

/-- The probability of a line of sight. -/
def lineOfSight? (s : Sample) : Option Binary64 := s.value? .lineOfSight

/-- The uid of the neighboring device. Only a short identifier, of four bytes, determines it. -/
def neighborUid? (s : Sample) : Option String :=
  if Text.byteLength s.neighbor = 4 then some ("DW" ++ Text.upper s.neighbor) else none

end Sample

/-! ## Stored form -/

namespace Measurement

/-- The members of a measurement, in their order. -/
def schema : List Json.Member :=
  [.required "kind", .required "value", .required "unit", .required "time"]

/-- A measurement as a document. -/
def toJson (m : Measurement) : Json :=
  .obj [("kind", .text m.quantity.name), ("value", .float m.value), ("unit", .text m.unit),
    ("time", .int m.time)]

/-- Reads a measurement. -/
def ofJson? (j : Json) : Option Measurement := do
  match ← j.membersOf? schema with
  | [kind, value, unit, time] =>
    return {
      quantity := ← Json.need (Json.choice? Quantity.ofName?) kind
      value := ← Json.need Json.toFinite? value
      unit := ← Json.need Json.toText? unit
      time := ← Json.need Json.toInt64? time }
  | _ => none

end Measurement

namespace Sample

/-- The members of a sample, in their order. -/
def schema : List Json.Member :=
  [.required "kind", .required "neighbor", .mayMiss "node_id", .required "tag", .required "time",
    .required "measurements"]

/-- A sample as a document; the node is left out when it is not known. -/
def toJson (s : Sample) : Json :=
  .obj (Json.present
    [("kind", some (.text s.radio.name)), ("neighbor", some (.text s.neighbor)),
      ("node_id", s.node.map .text), ("tag", some (.text s.subsystem)),
      ("time", some (.int s.time)),
      ("measurements", some (.array (s.measurements.map Measurement.toJson)))])

/-- Reads a sample in its stored form. -/
def ofJson? (j : Json) : Option Sample := do
  match ← j.membersOf? schema with
  | [kind, neighbor, node, tag, time, measurements] =>
    return {
      radio := ← Json.need (Json.choice? Radio.ofName?) kind
      neighbor := ← Json.need Json.toText? neighbor
      node := ← Json.maybe Json.toText? node
      subsystem := ← Json.need Json.toText? tag
      time := ← Json.need Json.toInt64? time
      measurements := ← Json.need (Json.toList? Measurement.ofJson?) measurements }
  | _ => none

end Sample

end ProximityLab
