import ProximityLab.Testbed.Request

/-!
# Assignment of nodes

The testbed answers a reservation with addresses and with positions. `assign` gives every
environment without an address the first address that is left for its board; an address that was
asked for is taken out of what is left. `locate` keeps the environments whose node has a position.
-/

namespace ProximityLab.Testbed

/-- A node and where it stands. -/
structure Located where
  address : String
  position : Position
  deriving DecidableEq

/-- Takes the first address out of a list that satisfies a test. -/
def takeFirst (p : String → Bool) : List String → Option (String × List String)
  | [] => none
  | a :: as =>
    if p a then some (a, as) else (takeFirst p as).map fun (found, rest) => (found, a :: rest)

/-- Gives an environment its address, and the addresses that are left. -/
def assignOne (free : List String) (e : Environment) : Environment × List String :=
  match e.get? Environment.addressVar with
  | some address => (e, free.filter (· ≠ address))
  | none =>
    match takeFirst (isAddressOf (e.board?.getD "")) free with
    | some (address, rest) => (e.set Environment.addressVar address, rest)
    | none => (e, free)

/-- Assigns the addresses of a reservation, and notes the reservation. -/
def assign (reservation : Nat) : List String → List Environment → List Environment
  | _, [] => []
  | free, e :: es =>
    let (e, free) := assignOne free e
    e.set Environment.reservationVar (toString reservation) :: assign reservation free es

/-- The position of a node; the last one that is given for an address counts. -/
def positionOf? (located : List Located) (address : String) : Option Position :=
  (located.reverse.find? (·.address == address)).map (·.position)

/-- Attaches positions; environments without one are dropped. -/
def locate (located : List Located) (es : List Environment) : List Environment :=
  es.filterMap fun e => do
    let position ← positionOf? located (← e.get? Environment.addressVar)
    return e.placed (some position)

end ProximityLab.Testbed
