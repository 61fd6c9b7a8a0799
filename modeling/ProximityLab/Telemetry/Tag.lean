import ProximityLab.Text.Lines

/-!
# Annotation tags

Every telemetry record names its origin in a tag `[<node>:]<subsystem>:<radio>:<neighbor>`.
`Tag.parse?` reads it, `Tag.text` writes it.
-/

namespace ProximityLab

/-- The radio that produced a record. -/
inductive Radio where
  | ble
  | uwb
  deriving DecidableEq, Repr

namespace Radio

/-- The name of a radio in tags and records. -/
def name : Radio → String
  | ble => "ble"
  | uwb => "uwb"

/-- The radio of a name. -/
def ofName? (s : String) : Option Radio :=
  if s = "ble" then some ble else if s = "uwb" then some uwb else none

theorem ofName?_name (r : Radio) : ofName? r.name = some r := by cases r <;> rfl

theorem name_of_ofName? {s : String} {r : Radio} (h : ofName? s = some r) : s = r.name := by
  unfold ofName? at h
  split at h
  · cases h; assumption
  · split at h
    · cases h; assumption
    · cases h

end Radio

/-- Where a telemetry record comes from and which neighbor it is about. -/
structure Tag where
  /-- The reporting node, in the four segment form only. -/
  node : Option String
  subsystem : String
  radio : Radio
  neighbor : String
  deriving DecidableEq

namespace Tag

/-- The last three segments, behind an optional node. -/
def ofSegments? (node : Option String) (subsystem radio neighbor : String) : Option Tag :=
  if neighbor.isEmpty then none
  else (Radio.ofName? radio).map fun radio => ⟨node, subsystem, radio, neighbor⟩

/-- Reads a tag of three or four segments. -/
def parse? (s : String) : Option Tag :=
  match Text.split ':' s with
  | [node, subsystem, radio, neighbor] => ofSegments? (some node) subsystem radio neighbor
  | [subsystem, radio, neighbor] => ofSegments? none subsystem radio neighbor
  | _ => none

/-- The text of a tag. -/
def text (t : Tag) : String :=
  let tail := t.subsystem ++ ":" ++ t.radio.name ++ ":" ++ t.neighbor
  match t.node with
  | some node => node ++ ":" ++ tail
  | none => tail

end Tag

end ProximityLab
