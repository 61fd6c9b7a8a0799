import ProximityLab.Environment.Variables
import ProximityLab.Snapshot.Basic

/-!
# Environments

An `Environment` holds the variables under which the firmware of one device is built and flashed,
and where the device stands. The variables also say how the device is addressed: by a network
address of a testbed, else by its index on this computer, else by its debug adapter.
`Environment.node?` is the name that follows from the address.
-/

namespace ProximityLab

/-- How a device is addressed. -/
inductive Addressing where
  /-- By an address in the network of a testbed. -/
  | network (address : String)
  /-- By an index among the attached boards. -/
  | boardIndex (board : Option String) (index : String)
  /-- By the serial number of a debug adapter. -/
  | debugAdapter (board : Option String) (id : String)
  deriving DecidableEq

/-- An identifier that belongs to a board, if the board is known. -/
def qualified (board : Option String) (id : String) : String :=
  match board with
  | some b => b ++ "_" ++ id
  | none => id

/-- The name of the device at an address. -/
def Addressing.node : Addressing → String
  | .network address => address
  | .boardIndex board index => qualified board index
  | .debugAdapter board id => qualified board id

/-- The variables and the position of one device. -/
structure Environment where
  vars : Variables
  position : Option Position
  deriving DecidableEq

namespace Environment

/-- The variable that names the kind of board. -/
def boardVar : String := "BOARD"

/-- The variable that selects an attached board. -/
def indexVar : String := "BOARD_INDEX"

/-- The variable that holds the address in a testbed. -/
def addressVar : String := "IOTLAB_NODE"

/-- The variable that holds the number of a testbed reservation. -/
def reservationVar : String := "IOTLAB_EXP_ID"

/-- The variable that holds the serial number of a debug adapter. -/
def adapterVar : String := "DEBUG_ADAPTER_ID"

/-- The variable that tells the terminal where to keep its log. -/
def termlogVar : String := "TERMLOG"

/-- The environment without variables. -/
def empty : Environment := ⟨.empty, none⟩

/-- The value of a variable. -/
def get? (e : Environment) (name : String) : Option String := e.vars.get? name

/-- The environment in which a variable has a value. -/
def set (e : Environment) (name value : String) : Environment :=
  { e with vars := e.vars.set name value }

/-- The environment of a device that stands elsewhere. -/
def placed (e : Environment) (position : Option Position) : Environment :=
  { e with position := position }

/-- The kind of board. -/
def board? (e : Environment) : Option String := e.get? boardVar

/-- How the device is addressed. -/
def addressing? (e : Environment) : Option Addressing :=
  match e.get? addressVar with
  | some address => some (.network address)
  | none =>
    match e.get? indexVar with
    | some index => some (.boardIndex e.board? index)
    | none => (e.get? adapterVar).map (.debugAdapter e.board? ·)

/-- The name of the device, if it has an address. -/
def node? (e : Environment) : Option String := e.addressing?.map Addressing.node

/-- The variables for people to read. -/
def text (e : Environment) : String := e.vars.text

end Environment

end ProximityLab
