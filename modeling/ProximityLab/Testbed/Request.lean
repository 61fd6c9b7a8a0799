import ProximityLab.Environment.Basic
import ProximityLab.Testbed.Address

/-!
# Requests for devices

A request lists boards and node addresses. `requested` turns it into environments: a board waits for
an address, an address brings its board. `Resource` is what the testbed is asked for.
-/

namespace ProximityLab.Testbed

/-- A request for one device, as it is submitted. -/
inductive Resource where
  /-- Any node of an architecture. -/
  | kind (archi site : String)
  /-- The node at an address. -/
  | node (address : String)
  deriving DecidableEq

/-- The environment of one request: a board or an address. -/
def requestedDevice (site request : String) : Except TestbedError Environment :=
  if (board? request).isSome then .ok (Environment.empty.set Environment.boardVar request)
  else do
    checkAddress request site none
    let board ← boardOfAddress request
    return Environment.empty.set Environment.addressVar request
      |>.set Environment.boardVar board.name

/-- The environments of a request on one site. -/
def requested (requests : List String) (site : String) :
    Except TestbedError (List Environment) := do
  checkSite site
  requests.mapM (requestedDevice site)

/-- What the testbed is asked for on behalf of an environment. -/
def resource (site : String) (e : Environment) : Except TestbedError Resource :=
  match e.get? Environment.addressVar with
  | some address => .ok (.node address)
  | none =>
    let board := e.board?.getD ""
    match board? board with
    | some b => .ok (.kind b.resourceName site)
    | none => .error (.unsupportedBoard board)

end ProximityLab.Testbed
