import ProximityLab.Testbed.Assignment

/-!
# Reservations

A `Lease` reserves nodes of the testbed through a `TestbedApi` and notes which reservation it holds.
Every call to the testbed is logged, failing ones too. `Lease.waitRunning` asks for the state of a
reservation at regular intervals until it runs; `Lease.reserve` submits, waits, and turns the nodes
into environments; `Lease.release` gives back what is held.
-/

namespace ProximityLab.Testbed

/-- A call to the testbed. -/
inductive ApiCall where
  | submit (name : String) (minutes : Nat) (resources : List Resource)
  | state (reservation : Nat)
  | nodes (reservation : Nat)
  | positions (reservation : Nat)
  | stop (reservation : Nat)
  deriving DecidableEq

/-- What the testbed answers, given the calls before. -/
structure TestbedApi where
  submit : List ApiCall → String → Nat → List Resource → Except TestbedError Nat
  state : List ApiCall → Nat → Except TestbedError String
  nodes : List ApiCall → Nat → Except TestbedError (List String)
  positions : List ApiCall → Nat → Except TestbedError (List Located)
  stop : List ApiCall → Nat → Except TestbedError Unit

/-- Access to the testbed, with the reservation that is held. -/
structure Lease where
  api : TestbedApi
  calls : List ApiCall
  held : Option Nat
  poll : TimeSpan
  limit : TimeSpan

/-- What waiting for the testbed ends with. -/
inductive Waited (α : Type) where
  | value (a : α)
  | failed (cause : TestbedError)
  /-- The horizon came first. -/
  | hung

/-- The states in which a reservation has yet to run. -/
def pendingStates : List String := ["Waiting", "toLaunch", "Launching"]

namespace Lease

/-- Access through an API, without a reservation. -/
def new (api : TestbedApi) (poll limit : TimeSpan) : Lease := ⟨api, [], none, poll, limit⟩

/-- Logs a call. -/
def log (l : Lease) (call : ApiCall) : Lease := { l with calls := l.calls ++ [call] }

/-- Asks for the state of a reservation until it runs, at most `fuel` times. -/
def pollWithin (id start horizon : Nat) : Nat → Nat → Lease → Waited Unit × Nat × Lease
  | 0, _, l => (.hung, horizon, l)
  | fuel + 1, now, l =>
    let answer := l.api.state l.calls id
    let l := l.log (.state id)
    match answer with
    | .error cause => (.failed cause, now, l)
    | .ok state =>
      let waited := TimeSpan.ofMillis (now - start)
      let next := now + l.poll.millisUp
      if state = "Running" then (.value (), now, l)
      else if !pendingStates.contains state then (.failed (.unexpectedState id state), now, l)
      else if l.limit.nanos ≤ waited.nanos then (.failed (.waitTimeout id waited), now, l)
      else if horizon < next then (.hung, horizon, l)
      else pollWithin id start horizon fuel next l

/-- Asks for the state of a reservation until it runs. -/
def waitRunning (id now horizon : Nat) (l : Lease) : Waited Unit × Nat × Lease :=
  pollWithin id now horizon (horizon - now + 2) now l

/-- The environments of a reservation that runs. -/
def collect (id : Nat) (es : List Environment) (l : Lease) :
    Except TestbedError (List Environment) × Lease :=
  let nodes := l.api.nodes l.calls id
  let l := l.log (.nodes id)
  match nodes with
  | .error cause => (.error cause, l)
  | .ok nodes =>
    let positions := l.api.positions l.calls id
    let l := l.log (.positions id)
    match positions with
    | .error cause => (.error cause, l)
    | .ok positions => (.ok (locate positions (assign id nodes es)), l)

/-- Reserves the requested devices. -/
def reserve (requests : List String) (name site : String) (minutes now horizon : Nat) (l : Lease) :
    Waited (List Environment) × Nat × Lease :=
  let prepared := do
    let es ← requested requests site
    return (es, ← es.mapM (resource site))
  match prepared with
  | .error cause => (.failed cause, now, l)
  | .ok (es, resources) =>
    let submitted := l.api.submit l.calls name minutes resources
    let l := l.log (.submit name minutes resources)
    match submitted with
    | .error cause => (.failed cause, now, l)
    | .ok id =>
      match waitRunning id now horizon { l with held := some id } with
      | (.failed cause, now, l) => (.failed cause, now, l)
      | (.hung, now, l) => (.hung, now, l)
      | (.value (), now, l) =>
        match collect id es l with
        | (.ok es, l) => (.value es, now, l)
        | (.error cause, l) => (.failed cause, now, l)

/-- Gives back what is held, if anything is. -/
def release (l : Lease) : Except TestbedError Unit × Lease :=
  match l.held with
  | none => (.ok (), l)
  | some id => (l.api.stop l.calls id, { l with held := none }.log (.stop id))

end Lease

end ProximityLab.Testbed
