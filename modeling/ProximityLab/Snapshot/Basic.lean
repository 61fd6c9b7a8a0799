import ProximityLab.Transcript

/-!
# Snapshots

What a run leaves behind: one `NodeRecord` per node, in the order of provisioning. `Snapshot.toJson`
and `Snapshot.ofJson?` give its stored form, in which an absent position or uid is null and an
absent outcome is left out.
-/

namespace ProximityLab

/-- Coordinates of a device in metres. -/
structure Position where
  x : Binary64
  y : Binary64
  z : Binary64
  deriving DecidableEq

/-- How a node's part of a campaign ended. -/
inductive Outcome where
  /-- The campaign ended and the prompt came back. -/
  | completed
  /-- The deadline of the node passed first. -/
  | timedOut
  /-- The campaign was stopped on request. -/
  | stopped
  /-- The control channel failed. -/
  | failed (cause : String)
  deriving DecidableEq

/-- The results of one node. -/
structure NodeRecord where
  node : String
  position : Option Position
  uid : Option String
  summaries : List Summary
  telemetry : List Sample
  outcome : Option Outcome
  deriving DecidableEq

/-- The results of one run, in provisioning order. -/
structure Snapshot where
  nodes : List NodeRecord
  deriving DecidableEq

namespace NodeRecord

/-- A node without results. -/
def new (node : String) (position : Option Position) : NodeRecord :=
  ⟨node, position, none, [], [], none⟩

/-- Adds findings behind those already there. -/
def absorb (r : NodeRecord) (f : Findings) : NodeRecord :=
  { r with summaries := r.summaries ++ f.summaries, telemetry := r.telemetry ++ f.telemetry }

@[simp] theorem summaries_absorb (r : NodeRecord) (f : Findings) :
    (r.absorb f).summaries = r.summaries ++ f.summaries := rfl

@[simp] theorem telemetry_absorb (r : NodeRecord) (f : Findings) :
    (r.absorb f).telemetry = r.telemetry ++ f.telemetry := rfl

/-- The samples of one radio. -/
def telemetryOf (r : NodeRecord) (radio : Radio) : List Sample :=
  r.telemetry.filter (·.radio = radio)

end NodeRecord

namespace Snapshot

/-- No nodes. -/
def empty : Snapshot := ⟨[]⟩

/-- There are no nodes. -/
def isEmpty (s : Snapshot) : Bool := s.nodes.isEmpty

/-- The first node with an identifier. -/
def node? (s : Snapshot) (id : String) : Option NodeRecord := s.nodes.find? (·.node = id)

end Snapshot

/-! ## Stored form -/

namespace Position

/-- Coordinates as a document. -/
def toJson (p : Position) : Json := .array [.float p.x, .float p.y, .float p.z]

/-- Reads three coordinates. -/
def ofJson? : Json → Option Position
  | .array [x, y, z] => do return ⟨← x.toFinite?, ← y.toFinite?, ← z.toFinite?⟩
  | _ => none

end Position

namespace Outcome

/-- The name of an outcome without its cause. -/
def status : Outcome → String
  | completed => "completed"
  | timedOut => "timed_out"
  | stopped => "stopped"
  | failed _ => "failed"

/-- The cause of a failure. -/
def detail? : Outcome → Option String
  | failed cause => some cause
  | _ => none

/-- An outcome as a document. -/
def toJson (o : Outcome) : Json :=
  .obj (Json.present [("status", some (.text o.status)), ("detail", o.detail?.map .text)])

/-- The outcome with a status and a detail: a failure has to have a text, the others no detail or
null. -/
def ofParts? (status : String) (detail : Option Json) : Option Outcome :=
  let plain (o : Outcome) : Option Outcome :=
    match detail with
    | none => some o
    | some .null => some o
    | some _ => none
  if status = "completed" then plain completed
  else if status = "timed_out" then plain timedOut
  else if status = "stopped" then plain stopped
  else if status = "failed" then (Json.need Json.toText? detail).map failed
  else none

/-- Reads an outcome: an object, whose other members are ignored, or status and detail in an
array. -/
def ofJson? : Json → Option Outcome
  | .object members =>
    if members.all (·.1.isSome) then do
      let status ← (← Json.lookupOnce? "status" members)
      let detail ← Json.lookupOnce? "detail" members
      ofParts? (← Json.choice? some status) detail
    else none
  | .array [status, detail] => do ofParts? (← Json.choice? some status) (some detail)
  | _ => none

end Outcome

namespace NodeRecord

/-- The members of a node's record, in their order. -/
def schema : List Json.Member :=
  [.required "node_id", .mayMiss "position", .mayMiss "uid", .mayMiss "epoch_data",
    .mayMiss "telemetry", .mayMiss "outcome"]

/-- A node's record as a document. -/
def toJson (r : NodeRecord) : Json :=
  .obj (Json.present
    [("node_id", some (.text r.node)),
      ("position", some (Json.nullable Position.toJson r.position)),
      ("uid", some (Json.nullable .text r.uid)),
      ("epoch_data", some (.array (r.summaries.map Summary.toJson))),
      ("telemetry", some (.array (r.telemetry.map Sample.toJson))),
      ("outcome", r.outcome.map Outcome.toJson)])

/-- Reads a node's record. -/
def ofJson? (j : Json) : Option NodeRecord := do
  match ← j.membersOf? schema with
  | [node, position, uid, summaries, telemetry, outcome] =>
    return {
      node := ← Json.need Json.toText? node
      position := ← Json.maybe Position.ofJson? position
      uid := ← Json.maybe Json.toText? uid
      summaries := ← Json.orElse (Json.toList? Summary.ofJson?) [] summaries
      telemetry := ← Json.orElse (Json.toList? Sample.ofJson?) [] telemetry
      outcome := ← Json.maybe Outcome.ofJson? outcome }
  | _ => none

end NodeRecord

namespace Snapshot

/-- The only member of a snapshot. -/
def schema : List Json.Member := [.required "nodes"]

/-- A snapshot as a document. -/
def toJson (s : Snapshot) : Json := .obj [("nodes", .array (s.nodes.map NodeRecord.toJson))]

/-- Reads a snapshot. -/
def ofJson? (j : Json) : Option Snapshot := do
  match ← j.membersOf? schema with
  | [nodes] => (Json.need (Json.toList? NodeRecord.ofJson?) nodes).map Snapshot.mk
  | _ => none

end Snapshot

end ProximityLab
