import ProximityLab.Snapshot.Basic

/-!
# Reports

The counts per node that stand in the report at the end of a run.
-/

namespace ProximityLab

/-- The counts of one node. -/
structure NodeReport where
  node : String
  uid : Option String
  outcome : Option Outcome
  epochs : Nat
  /-- Encounters over all epochs. -/
  encounters : Nat
  bleSamples : Nat
  uwbSamples : Nat
  deriving DecidableEq

/-- The counts of a node's record. -/
def NodeRecord.report (r : NodeRecord) : NodeReport :=
  { node := r.node
    uid := r.uid
    outcome := r.outcome
    epochs := r.summaries.length
    encounters := (r.summaries.flatMap (·.encounters)).length
    bleSamples := (r.telemetryOf .ble).length
    uwbSamples := (r.telemetryOf .uwb).length }

/-- The counts of all nodes. -/
def Snapshot.reports (s : Snapshot) : List NodeReport := s.nodes.map NodeRecord.report

end ProximityLab
