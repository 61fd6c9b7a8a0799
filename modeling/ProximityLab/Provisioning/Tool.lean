import ProximityLab.Environment.Basic
import ProximityLab.Terminal.Basic

/-!
# Firmware tools

A `FirmwareTool` builds, flashes and resets the firmware of a device and opens its terminal. Every
use of it is a `ToolCall`; it may succeed, fail with a `DeviceError` or break down, and it may
change files. What it does can depend on all calls before.
-/

namespace ProximityLab

/-- A use of the firmware tool for one device. -/
structure ToolCall where
  node : String
  vars : Variables
  target : String
  deriving DecidableEq

namespace ToolCall

/-- The target that builds and flashes. -/
def flash : String := "flash"

/-- The target that flashes an image that is there. -/
def flashOnly : String := "flash-only"

/-- The target that restarts the device. -/
def reset : String := "reset"

/-- The target that opens the terminal. -/
def term : String := "term"

end ToolCall

/-- Why a device could not be provisioned. -/
inductive DeviceError where
  /-- The environment does not address a device. -/
  | unclassified (env : Environment)
  /-- The tool reported a failure. -/
  | make (node target status stderr : String)
  /-- The tool could not be run. -/
  | spawn (node target cause : String)
  deriving DecidableEq

/-- The failure for people to read. -/
def DeviceError.message : DeviceError → String
  | .unclassified env =>
    "cannot construct node id: none of IOTLAB_NODE, BOARD_INDEX or DEBUG_ADAPTER_ID in " ++ env.text
  | .make node target status stderr => s!"`make {target}` failed for {node} ({status}): {stderr}"
  | .spawn node target cause => s!"failed to spawn `make {target}` for {node}: {cause}"

/-- The failure and what led to it, for people to read. -/
def DeviceError.causes : DeviceError → List String
  | .spawn node target cause => [(DeviceError.spawn node target cause).message, cause]
  | e => [e.message]

/-- The name of the device of an environment. -/
def Environment.node (e : Environment) : Except DeviceError String :=
  match e.node? with
  | some node => .ok node
  | none => .error (.unclassified e)

/-- What an attempt at something ends with. -/
inductive Attempt (α : Type) where
  | done (a : α)
  | failed (cause : DeviceError)
  /-- The attempt broke down without a failure of its own. -/
  | panicked

/-- What a firmware tool does, given all calls before and the files. -/
structure FirmwareTool where
  build : List ToolCall → FileSystem → ToolCall → Attempt Unit × FileSystem
  openTerminal : List ToolCall → FileSystem → ToolCall → Attempt Behaviour × FileSystem

end ProximityLab
