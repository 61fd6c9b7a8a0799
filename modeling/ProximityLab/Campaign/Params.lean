import ProximityLab.Json.Record
import ProximityLab.Time.Span

/-!
# Campaign parameters

`Params` is what a device is told when a campaign starts. `Params.startArgs` is the command's
arguments, `Params.timeout` the time a bounded campaign may take.
-/

namespace ProximityLab

/-- Parameters of a campaign. All numbers have 32 bits. -/
structure Params where
  /-- Number of epochs; zero runs until stopped. -/
  iterations : Nat
  /-- Length of an epoch in seconds. -/
  duration : Nat
  /-- Advertisement interval in milliseconds. -/
  advInterval : Nat
  /-- Advertisements per slice of an identifier. -/
  advsPerSlice : Nat
  /-- Scan interval in milliseconds. -/
  scanInterval : Nat
  /-- Scan window in milliseconds. -/
  scanWindow : Nat
  /-- Align the start of epochs with the wall clock. -/
  alignStart : Bool
  /-- Align the end of epochs with the wall clock. -/
  alignEnd : Bool
  deriving DecidableEq

/-- A time computation left the range of spans or instants. -/
inductive TimeOverflow where
  | overflow
  deriving DecidableEq

namespace Params

/-- What holds unless a configuration says otherwise. -/
def default : Params :=
  { iterations := 0, duration := 900, advInterval := 1000, advsPerSlice := 20,
    scanInterval := 4096, scanWindow := 1024, alignStart := false, alignEnd := false }

/-- Arguments of the command that starts a campaign. -/
def startArgs (p : Params) : String :=
  s!"start -d {p.duration} -i {p.advInterval} -r {p.advsPerSlice} -c {p.iterations}" ++
    s!" -s {p.scanWindow},{p.scanInterval}" ++
    (if p.alignEnd then " -e" else "") ++ (if p.alignStart then " -a" else "")

/-- The factor by which a campaign may take longer than its epochs. -/
def timeoutFactor : Binary64 := .ofDecimal false 11 (-1)

/-- The longest a campaign may take: a tenth more than its epochs, and the slack. A campaign that
runs until stopped has no limit. -/
def timeout (p : Params) (slack : TimeSpan) : Except TimeOverflow (Option TimeSpan) :=
  if p.iterations = 0 then .ok none
  else
    let seconds := ((Binary64.ofNat p.duration).mul (.ofNat p.iterations)).mul timeoutFactor
    match (TimeSpan.ofFloatSeconds? seconds).bind (·.add? slack) with
    | some d => .ok (some d)
    | none => .error .overflow

/-- The members of parameters, in their order. -/
def schema : List Json.Member :=
  [.mayMiss "iterations", .mayMiss "duration", .mayMiss "adv_itvl", .mayMiss "advs_slice",
    .mayMiss "scan_itvl", .mayMiss "scan_win", .mayMiss "align_start", .mayMiss "align_end"]

/-- Parameters as a document. -/
def toJson (p : Params) : Json :=
  .obj [("iterations", .nat p.iterations), ("duration", .nat p.duration),
    ("adv_itvl", .nat p.advInterval), ("advs_slice", .nat p.advsPerSlice),
    ("scan_itvl", .nat p.scanInterval), ("scan_win", .nat p.scanWindow),
    ("align_start", .bool p.alignStart), ("align_end", .bool p.alignEnd)]

/-- Reads parameters; a missing member has its default. -/
def ofJson? (j : Json) : Option Params := do
  let count := Json.orElse (Json.toNat? 32)
  let flag := Json.orElse Json.toBool?
  match ← j.membersOf? schema with
  | [iterations, duration, advInterval, advsPerSlice, scanInterval, scanWindow, alignStart,
      alignEnd] =>
    return {
      iterations := ← count default.iterations iterations
      duration := ← count default.duration duration
      advInterval := ← count default.advInterval advInterval
      advsPerSlice := ← count default.advsPerSlice advsPerSlice
      scanInterval := ← count default.scanInterval scanInterval
      scanWindow := ← count default.scanWindow scanWindow
      alignStart := ← flag default.alignStart alignStart
      alignEnd := ← flag default.alignEnd alignEnd }
  | _ => none

end Params

end ProximityLab
