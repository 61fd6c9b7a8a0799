import ProximityLab.Session.Commands
import ProximityLab.Snapshot.Basic

/-!
# Nodes

A `Node` is a provisioned device together with its results. Its `Phase` says where it is in a
campaign: a node takes part in one campaign at a time and has an outcome when it has left it. The
identifier of the device is assigned once, before the first campaign.

* `setUid_eq_ok_iff`: when an identifier can be assigned.
-/

namespace ProximityLab

/-- Where a node is in a campaign. -/
inductive Phase where
  | idle
  | starting
  | awaiting
  | completed
  | timedOut
  | failed
  deriving DecidableEq

/-- The name of a phase. -/
def Phase.name : Phase → String
  | .idle => "Idle"
  | .starting => "Starting"
  | .awaiting => "AwaitingCompletion"
  | .completed => "Completed"
  | .timedOut => "TimedOut"
  | .failed => "Failed"

/-- The node takes part in a campaign. -/
def Phase.inFlight (p : Phase) : Bool := p = .starting || p = .awaiting

/-- The phase that an outcome leads to. -/
def Outcome.phase : Outcome → Phase
  | .completed => .completed
  | .stopped => .completed
  | .timedOut => .timedOut
  | .failed _ => .failed

/-- A violation of the rules of a node's life. -/
inductive NodeError where
  | uidAssigned (node uid : String)
  | notIdle (node action : String)
  deriving DecidableEq

/-- The violation for people to read. -/
def NodeError.message : NodeError → String
  | .uidAssigned node uid => s!"uid of {node} already assigned ({uid})"
  | .notIdle node action => s!"{node} is not idle, cannot {action}"

/-- A device and its results. -/
structure Node where
  terminal : Terminal
  record : NodeRecord
  phase : Phase

namespace Node

/-- A node that has taken part in nothing. -/
def new (terminal : Terminal) (node : String) (position : Option Position) : Node :=
  ⟨terminal, .new node position, .idle⟩

/-- The name of the node. -/
def id (n : Node) : String := n.record.node

/-- Assigns the identifier of the device. -/
def setUid (uid : String) (n : Node) : Except NodeError Node :=
  match n.record.uid with
  | some old => .error (.uidAssigned n.id old)
  | none =>
    if n.phase = .idle then .ok { n with record := { n.record with uid := some uid } }
    else .error (.notIdle n.id "assign a uid")

theorem setUid_eq_ok_iff {uid : String} {n n' : Node} :
    n.setUid uid = .ok n' ↔
      n.record.uid = none ∧ n.phase = .idle ∧
        n' = { n with record := { n.record with uid := some uid } } := by
  unfold setUid
  split
  · simp_all
  · split <;> simp_all [eq_comm]

/-- Leaves a campaign with the lines that were read and an outcome. -/
def finish (lines : List String) (outcome : Outcome) (n : Node) : Node :=
  { n with
    record := { n.record.absorb (classifyLines lines) with outcome := some outcome }
    phase := outcome.phase }

/-- The node with its terminal in another state. -/
def withTerminal (n : Node) (t : Terminal) : Node := { n with terminal := t }

end Node

end ProximityLab
