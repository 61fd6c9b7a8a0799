import ProximityLab.Environment.Boards
import ProximityLab.FileSystem.Basic
import ProximityLab.Testbed.Client

/-!
# Where environments come from

A `ReservationSpec` names the devices of an experiment: boards and addresses on the testbed, or a
boards file. An `EnvironmentSource` reserves devices and releases them; an `EnvironmentError` says
why there are none. `ReservationSpec.source` is the source that serves a specification.
-/

namespace ProximityLab

/-- The devices of an experiment. -/
inductive ReservationSpec where
  | testbed (requests : List String) (name site : String) (minutes : Nat)
  | file (path : String)
  deriving DecidableEq

/-- The count of devices, when it is known beforehand. -/
def ReservationSpec.requested? : ReservationSpec → Option Nat
  | .testbed requests .. => some requests.length
  | .file _ => none

/-- Why there are no environments. -/
inductive EnvironmentError where
  /-- This source does not serve the specification. -/
  | unsupportedSpec (source : String)
  | unreadable (path : String) (cause : FileError)
  | malformed (path : String)
  | testbed (cause : TestbedError)
  deriving DecidableEq

/-- The failure for people to read. -/
def EnvironmentError.message : EnvironmentError → String
  | .unsupportedSpec source =>
    s!"reservation spec is not supported by the {source} environment factory"
  | .unreadable path cause => s!"failed to read boards file {path}: {cause.message}"
  | .malformed path => s!"invalid boards file {path}"
  | .testbed cause => cause.message

/-- The failure and what led to it, for people to read. -/
def EnvironmentError.causes : EnvironmentError → List String
  | .unreadable path cause => [(EnvironmentError.unreadable path cause).message, cause.message]
  | e => [e.message]

/-- The environments of the boards file at a path. -/
def Environment.ofBoardsFile (fs : FileSystem) (path : String) :
    Except EnvironmentError (List Environment) := do
  let text ← (fs.readText path).mapError (.unreadable path)
  match Environment.ofBoards? text with
  | some es => .ok es
  | none => .error (.malformed path)

/-- The environments that a boards file gives for a specification. -/
def ReservationSpec.fromFile (fs : FileSystem) :
    ReservationSpec → Except EnvironmentError (List Environment)
  | .file path => Environment.ofBoardsFile fs path
  | .testbed .. => .error (.unsupportedSpec "file")

/-- What a reservation ends with. -/
inductive Reserved where
  | environments (es : List Environment)
  | failed (cause : EnvironmentError)
  /-- The attempt broke down without a failure of its own. -/
  | panicked
  /-- The horizon came first. -/
  | hung

/-- Something that reserves devices and releases them. A reservation starts at a moment and is given
up at a horizon; it ends at the moment that it gives. -/
structure EnvironmentSource (σ : Type) where
  reserve : FileSystem → Nat → Nat → σ → Reserved × Nat × σ
  release : σ → Except EnvironmentError Unit × σ

namespace ReservationSpec

/-- Reserves what a specification names, on the testbed through a lease. -/
def reserve (spec : ReservationSpec) (fs : FileSystem) (now horizon : Nat)
    (lease : Option Testbed.Lease) : Reserved × Nat × Option Testbed.Lease :=
  match spec, lease with
  | .file path, lease =>
    match Environment.ofBoardsFile fs path with
    | .ok es => (.environments es, now, lease)
    | .error cause => (.failed cause, now, lease)
  | .testbed .., none => (.failed (.testbed .missingCredentials), now, none)
  | .testbed requests name site minutes, some lease =>
    match lease.reserve requests name site minutes now horizon with
    | (.value es, time, lease) => (.environments es, time, some lease)
    | (.failed cause, time, lease) => (.failed (.testbed cause), time, some lease)
    | (.hung, time, lease) => (.hung, time, some lease)

/-- Releases what a lease holds. -/
def release : Option Testbed.Lease → Except EnvironmentError Unit × Option Testbed.Lease
  | none => (.ok (), none)
  | some lease =>
    let (result, lease) := lease.release
    (result.mapError .testbed, some lease)

/-- The lease under which a specification is reserved: for the testbed there have to be credentials.
-/
def lease (spec : ReservationSpec) (access : TestbedAccess) (vars : Variables)
    (send : Http.Request → Option Http.Response) : Except EnvironmentError (Option Testbed.Lease) :=
  match spec with
  | .file _ => .ok none
  | .testbed .. =>
    match Testbed.Client.of? access vars with
    | .ok client => .ok (some (.new (client.api send) access.pollSpan access.waitSpan))
    | .error cause => .error (.testbed cause)

/-- The source that serves a specification. -/
def source (spec : ReservationSpec) : EnvironmentSource (Option Testbed.Lease) :=
  ⟨spec.reserve, release⟩

end ReservationSpec

end ProximityLab
