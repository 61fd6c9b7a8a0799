import ProximityLab.Configuration
import ProximityLab.Environment.Variables
import ProximityLab.Http
import ProximityLab.Json.Printer
import ProximityLab.Json.Record
import ProximityLab.Number.FloatReader
import ProximityLab.Testbed.Reservation
import ProximityLab.Text.Blank
import ProximityLab.Text.Encoding

/-!
# Access to the testbed over HTTP

A `Client` knows where the testbed is and who asks. `Client.request?` is the request of a call, the
readers that follow it take the answers apart, and `Client.api` puts both together over any means to
send a request.
-/

namespace ProximityLab.Testbed

/-- Where the testbed is, and who asks. -/
structure Client where
  url : String
  user : String
  password : String
  deriving DecidableEq

/-- Text without the slashes at its end. -/
def trimSlashes (s : String) : String := String.ofList (Text.dropWhileEnd (· = '/') s.toList)

/-! ## Requests -/

/-- A resource as it is submitted, under its position in the list. -/
def Resource.toJson (position : Nat) : Resource → Json
  | .kind archi site =>
    .obj [("alias", .text (toString position)), ("nbnodes", .nat 1),
      ("properties", .obj [("archi", .text archi), ("mobile", .bool false), ("site", .text site)])]
  | .node address => .text address

/-- A reservation as it is submitted. -/
def submission (name : String) (minutes : Nat) (resources : List Resource) : Json :=
  .obj [("duration", .nat minutes), ("name", .text name),
    ("nodes", .array (resources.mapIdx fun i r => r.toJson (i + 1)))]

/-- The name under which a reservation is submitted. -/
def submissionFile : String := "new_exp.json"

/-- The header lines of a submission. -/
def submissionHeaders : List String :=
  let named := (Json.text submissionFile).render
  [s!"Content-Disposition: form-data; name={named}; filename={named}",
    "Content-Type: application/json"]

namespace ApiCall

/-- The method of a call. -/
def method : ApiCall → String
  | .submit .. => "POST"
  | .stop _ => "DELETE"
  | _ => "GET"

/-- Where a call goes, below the address of the testbed. -/
def path : ApiCall → String
  | .submit .. => "experiments"
  | .state id | .nodes id | .stop id => s!"experiments/{id}"
  | .positions id => s!"experiments/{id}/nodes"

/-- What a call submits. -/
def part : ApiCall → Option (List String × String)
  | .submit name minutes resources =>
    some (submissionHeaders, (submission name minutes resources).render)
  | _ => none

end ApiCall

namespace Client

/-- Takes the credentials from the configuration, else from variables. -/
def of? (access : TestbedAccess) (vars : Variables) : Except TestbedError Client :=
  let user := access.user.orElse fun _ => vars.get? "IOTLAB_USER"
  let password := access.password.orElse fun _ => vars.get? "IOTLAB_PASSWORD"
  match user, password with
  | some user, some password => .ok ⟨trimSlashes access.url, user, password⟩
  | _, _ => .error .missingCredentials

/-- The header that says who asks. -/
def authorization (c : Client) : String :=
  "Basic " ++ String.ofList (Text.base64 (Text.encode (c.user ++ ":" ++ c.password)))

/-- The request of a call; `none` if the address of the testbed is malformed. -/
def request? (c : Client) (call : ApiCall) : Option Http.Request := do
  let target ← Http.target? (c.url ++ "/" ++ call.path)
  return ⟨call.method, target, c.authorization, call.part⟩

end Client

/-! ## Answers -/

/-- The number of a new reservation. -/
def readNumber? (j : Json) : Option Nat := do
  match ← j.membersOf? [.required "id"] with
  | [id] => Json.need (Json.toNat? 64) id
  | _ => none

/-- The state and the nodes of a reservation. -/
def readReservation? (j : Json) : Option (String × List String) := do
  match ← j.membersOf? [.mayMiss "state", .mayMiss "nodes"] with
  | [state, nodes] =>
    let state ← Json.maybe Json.toText? state
    let nodes ← Json.orElse (Json.toList? Json.toText?) [] nodes
    return (state.getD "", nodes)
  | _ => none

/-- A coordinate is a finite number, or a text that reads as one. -/
def coordinate? : Json → Option Binary64
  | .number n => n.toFinite?
  | .string (some s) => (Binary64.ofText? (Text.trimBlanks s.toList)).filter (·.isFinite)
  | _ => none

/-- The depth at which coordinates stand in the list of nodes. -/
def coordinateDepth : Nat := 3

/-- The value of a coordinate that may be missing. -/
def settleCoordinate? : Option Json → Option Json :=
  Json.orElse (Json.settleWithin? (Json.nestingLimit - coordinateDepth)) .null

/-- An entry in the list of nodes: its address, and where it stands if that is known. -/
def readLocated? (j : Json) : Option (Option Located) := do
  match ← j.membersOf? [.required "network_address", .mayMiss "x", .mayMiss "y", .mayMiss "z"] with
  | [address, x, y, z] =>
    let address ← Json.need Json.toText? address
    let x ← settleCoordinate? x
    let y ← settleCoordinate? y
    let z ← settleCoordinate? z
    return do return ⟨address, ← coordinate? x, ← coordinate? y, ← coordinate? z⟩
  | _ => none

/-- The list of nodes: those whose place is known. -/
def readPositions? (j : Json) : Option (List Located) := do
  match ← j.membersOf? [.required "items"] with
  | [items] => return (← Json.need (Json.toList? readLocated?) items).filterMap id
  | _ => none

/-- The response to a request, if it reports success. -/
def succeeded : Option Http.Response → Except TestbedError Http.Response
  | none => .error .badAnswer
  | some r =>
    if !r.isFinal then .error .badAnswer
    else if r.isSuccess then .ok r
    else .error (.status r.status r.text)

/-- What a response says. -/
def answer {α : Type} (read? : Json → Option α) (response : Option Http.Response) :
    Except TestbedError α := do
  let r ← succeeded response
  match (Json.read? r.content).bind read? with
  | some a => .ok a
  | none => .error .badAnswer

/-- The testbed behind a means to send requests, which fails where no response comes back. -/
def Client.api (c : Client) (send : Http.Request → Option Http.Response) : TestbedApi :=
  let exchange (call : ApiCall) : Option Http.Response := (c.request? call).bind send
  { submit := fun _ name minutes resources =>
      answer readNumber? (exchange (.submit name minutes resources))
    state := fun _ id => (answer readReservation? (exchange (.state id))).map (·.1)
    nodes := fun _ id => (answer readReservation? (exchange (.nodes id))).map (·.2)
    positions := fun _ id => answer readPositions? (exchange (.positions id))
    stop := fun _ id => (succeeded (exchange (.stop id))).map fun _ => () }

end ProximityLab.Testbed
