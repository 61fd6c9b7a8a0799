import ProximityLab.Json.Record
import ProximityLab.Text.Lines

/-!
# Epoch summaries

At the end of every epoch a device prints one object that lists the encounters it recorded. What a
firmware does not report stays absent; it never becomes zero. `Summary.ofJson?` reads a summary and
`Summary.toJson` writes it.
-/

namespace ProximityLab

/-- Ranging statistics of an encounter. -/
structure UwbStats where
  exposure : Nat
  requests : Option Nat
  meanDistance : Option Binary64
  meanLineOfSight : Option Binary64
  meanRssi : Option Binary64
  listenScheduled : Option Nat
  listenAborted : Option Nat
  listenTimeout : Option Nat
  requestScheduled : Option Nat
  requestAborted : Option Nat
  requestTimeout : Option Nat
  deriving DecidableEq

/-- Scan statistics of an encounter. -/
structure BleStats where
  exposure : Nat
  scans : Option Nat
  meanRssi : Option Binary64
  meanDistance : Option Binary64
  deriving DecidableEq

/-- One encounter: the pair of token hashes and the statistics behind it. -/
structure Encounter where
  longTerm : String
  rolling : String
  uwb : Option UwbStats
  ble : Option BleStats
  deriving DecidableEq

/-- The summary of one finished epoch on one node. -/
structure Summary where
  /-- A free label, `<node>:<scenario>` or just `<scenario>`. -/
  label : Option String
  epoch : Nat
  encounters : List Encounter
  deriving DecidableEq

namespace UwbStats

/-- The members of ranging statistics, in their order. -/
def schema : List Json.Member :=
  [.required "exposure", .mayMiss "req_count", .mayMiss "avg_d_cm", .mayMiss "avg_los",
    .mayMiss "avg_rssi", .mayMiss "lst_scheduled", .mayMiss "lst_aborted", .mayMiss "lst_timeout",
    .mayMiss "req_scheduled", .mayMiss "req_aborted", .mayMiss "req_timeout"]

/-- Ranging statistics as a document. -/
def toJson (s : UwbStats) : Json :=
  .obj (Json.present
    [("exposure", some (.nat s.exposure)), ("req_count", s.requests.map .nat),
      ("avg_d_cm", s.meanDistance.map .float), ("avg_los", s.meanLineOfSight.map .float),
      ("avg_rssi", s.meanRssi.map .float), ("lst_scheduled", s.listenScheduled.map .nat),
      ("lst_aborted", s.listenAborted.map .nat), ("lst_timeout", s.listenTimeout.map .nat),
      ("req_scheduled", s.requestScheduled.map .nat), ("req_aborted", s.requestAborted.map .nat),
      ("req_timeout", s.requestTimeout.map .nat)])

/-- Reads ranging statistics. -/
def ofJson? (j : Json) : Option UwbStats := do
  match ← j.membersOf? schema with
  | [exposure, requests, distance, los, rssi, ls, la, lt, rs, ra, rt] =>
    return {
      exposure := ← Json.need (Json.toNat? 32) exposure
      requests := ← Json.maybe (Json.toNat? 32) requests
      meanDistance := ← Json.maybe Json.toFinite? distance
      meanLineOfSight := ← Json.maybe Json.toFinite? los
      meanRssi := ← Json.maybe Json.toFinite? rssi
      listenScheduled := ← Json.maybe (Json.toNat? 32) ls
      listenAborted := ← Json.maybe (Json.toNat? 32) la
      listenTimeout := ← Json.maybe (Json.toNat? 32) lt
      requestScheduled := ← Json.maybe (Json.toNat? 32) rs
      requestAborted := ← Json.maybe (Json.toNat? 32) ra
      requestTimeout := ← Json.maybe (Json.toNat? 32) rt }
  | _ => none

end UwbStats

namespace BleStats

/-- The members of scan statistics, in their order. -/
def schema : List Json.Member :=
  [.required "exposure", .mayMiss "scan_count", .mayMiss "avg_rssi", .mayMiss "avg_d_cm"]

/-- Scan statistics as a document. -/
def toJson (s : BleStats) : Json :=
  .obj (Json.present
    [("exposure", some (.nat s.exposure)), ("scan_count", s.scans.map .nat),
      ("avg_rssi", s.meanRssi.map .float), ("avg_d_cm", s.meanDistance.map .float)])

/-- Reads scan statistics. -/
def ofJson? (j : Json) : Option BleStats := do
  match ← j.membersOf? schema with
  | [exposure, scans, rssi, distance] =>
    return {
      exposure := ← Json.need (Json.toNat? 32) exposure
      scans := ← Json.maybe (Json.toNat? 32) scans
      meanRssi := ← Json.maybe Json.toFinite? rssi
      meanDistance := ← Json.maybe Json.toFinite? distance }
  | _ => none

end BleStats

namespace Encounter

/-- The members of an encounter, in their order. -/
def schema : List Json.Member :=
  [.required "etl", .required "rtl", .mayMiss "uwb", .mayMiss "ble"]

/-- The only member of an entry in the list of encounters. -/
def entrySchema : List Json.Member := [.required "pet"]

/-- An encounter as an entry of the list. -/
def toJson (e : Encounter) : Json :=
  .obj [("pet", .obj (Json.present
    [("etl", some (.text e.longTerm)), ("rtl", some (.text e.rolling)),
      ("uwb", e.uwb.map UwbStats.toJson), ("ble", e.ble.map BleStats.toJson)]))]

/-- Reads the encounter of an entry. -/
def ofPet? (j : Json) : Option Encounter := do
  match ← j.membersOf? schema with
  | [etl, rtl, uwb, ble] =>
    return {
      longTerm := ← Json.need Json.toText? etl
      rolling := ← Json.need Json.toText? rtl
      uwb := ← Json.maybe UwbStats.ofJson? uwb
      ble := ← Json.maybe BleStats.ofJson? ble }
  | _ => none

/-- Reads an entry of the list of encounters. -/
def ofJson? (j : Json) : Option Encounter := do
  match ← j.membersOf? entrySchema with
  | [pet] => Json.need ofPet? pet
  | _ => none

end Encounter

namespace Summary

/-- The members of a summary, in their order. -/
def schema : List Json.Member := [.mayMiss "tag", .required "epoch", .required "pets"]

/-- A summary as a document; the label is left out when it is absent. -/
def toJson (s : Summary) : Json :=
  .obj (Json.present
    [("tag", s.label.map .text), ("epoch", some (.nat s.epoch)),
      ("pets", some (.array (s.encounters.map Encounter.toJson)))])

/-- Reads a summary. -/
def ofJson? (j : Json) : Option Summary := do
  match ← j.membersOf? schema with
  | [tag, epoch, pets] =>
    return {
      label := ← Json.maybe Json.toText? tag
      epoch := ← Json.need (Json.toNat? 64) epoch
      encounters := ← Json.need (Json.toList? Encounter.ofJson?) pets }
  | _ => none

/-- Reads a line. -/
def read? (line : String) : Option Summary := Json.read? line >>= ofJson?

/-- The scenario part of the label: what follows its last colon. -/
def scenario? (s : Summary) : Option String := s.label.bind fun l => (Text.split ':' l).getLast?

/-- The node part of the label: what precedes its first colon, if there is one. -/
def node? (s : Summary) : Option String :=
  s.label.bind fun l =>
    match Text.split ':' l with
    | node :: _ :: _ => some node
    | _ => none

end Summary

end ProximityLab
