import ProximityLab.FileSystem.Basic
import ProximityLab.Script.Arithmetic

/-!
# The state of a running script

A `Machine` holds the parameters of a script, its streams, what it has printed and the files it has
changed. Streams are numbered: 0 is read, 1 takes output and 2 takes messages.
-/

namespace ProximityLab.Script

/-- What a stream is connected to. -/
inductive Stream where
  /-- What the script is given to read. -/
  | input
  | output
  | errors
  /-- The rest of a file. -/
  | text (rest : List Char)
  | file (path : String)
  /-- Nothing to read, and what is written is lost. -/
  | void
  deriving DecidableEq

/-- How a process ended. -/
inductive ExitStatus where
  | code (n : Nat)
  | signal (n : Nat)
  deriving DecidableEq

namespace ExitStatus

/-- The names of signals from the first on. -/
def signalNames : List String :=
  ["HUP", "INT", "QUIT", "ILL", "TRAP", "ABRT", "BUS", "FPE", "KILL", "USR1", "SEGV", "USR2",
    "PIPE",
    "ALRM", "TERM", "STKFLT", "CHLD", "CONT", "STOP", "TSTP", "TTIN", "TTOU", "URG", "XCPU", "XFSZ",
    "VTALRM", "PROF", "WINCH", "IO", "PWR", "SYS"]

/-- The status for people to read. -/
def text : ExitStatus → String
  | .code n => s!"exit status: {n}"
  | .signal n =>
    match signalNames[n - 1]? with
    | some name => s!"signal: {n} (SIG{name})"
    | none => s!"signal: {n}"

/-- The process succeeded. -/
def isSuccess (s : ExitStatus) : Bool := s = .code 0

end ExitStatus

/-- How the course of a script goes on after a command. -/
inductive Flow where
  | next
  /-- Leaves loops, or goes on with the next round of the outermost of them. -/
  | leave (levels : Nat) (again : Bool)
  | ended (status : ExitStatus)
  /-- Waits for something to read. -/
  | waiting
  deriving DecidableEq

/-- The state of a script. -/
structure Machine where
  /-- The path of the script. -/
  name : List Char
  arguments : List (List Char)
  parameters : List (List Char × List Char)
  /-- What can be read from the input. -/
  input : List Char
  /-- Nothing will follow on the input. -/
  inputEnds : Bool
  streams : List (Nat × Stream)
  output : List Char
  errors : List Char
  files : FileSystem
  writes : List FileWrite
  /-- The status of the last command. -/
  status : Nat
  /-- A command that fails ends the script. -/
  strict : Bool

/-- The bytes of a text, a character for each. -/
def charsOf (s : String) : List Char := (Text.encode s).map fun b => Char.ofNat b.toNat

/-- The bytes that characters stand for. -/
def bytesOf (cs : List Char) : List UInt8 := cs.map fun c => UInt8.ofNat c.toNat

/-- The text of bytes. -/
def textOf (cs : List Char) : String := Text.decodeLossy (bytesOf cs)

/-- The number that stands for the process. -/
def processNumber : List Char := "100".toList

namespace Machine

/-- The value of a parameter with a name. -/
def variableOf (m : Machine) (name : List Char) : Option (List Char) := m.parameters.lookup name

/-- Gives a parameter a value. -/
def assign (name value : List Char) (m : Machine) : Machine :=
  { m with parameters := (name, value) :: m.parameters.filter (·.1 ≠ name) }

/-- Removes a parameter. -/
def unassign (name : List Char) (m : Machine) : Machine :=
  { m with parameters := m.parameters.filter (·.1 ≠ name) }

/-- What a stream is connected to, if it is open. -/
def stream? (m : Machine) (n : Nat) : Option Stream := m.streams.lookup n

/-- Connects a stream, or closes it. -/
def connect (n : Nat) (s : Option Stream) (m : Machine) : Machine :=
  { m with streams := (s.toList.map (n, ·)) ++ m.streams.filter (·.1 ≠ n) }

/-- Changes a file. -/
def change (w : FileWrite) (m : Machine) : Machine :=
  { m with files := m.files.tryWrite w, writes := m.writes ++ [w] }

/-- Writes to a stream and says whether it is open. -/
def write (n : Nat) (cs : List Char) (m : Machine) : Bool × Machine :=
  match m.stream? n with
  | some .output => (true, { m with output := m.output ++ cs })
  | some .errors => (true, { m with errors := m.errors ++ cs })
  | some (.file path) =>
    (true, if cs.isEmpty then m else m.change ⟨path, bytesOf cs, true⟩)
  | some .void => (true, m)
  | some .input | some (.text _) | none => (false, m)

/-- Sets the status. -/
def withStatus (n : Nat) (m : Machine) : Machine := { m with status := n }

/-- Prints a message about a line of the script. -/
def complain (line : Nat) (message : List Char) (m : Machine) : Machine :=
  (m.write 2 (m.name ++ charsOf s!": {line}: " ++ message ++ ['\n'])).2

/-- What a wait for a line of input ends with. -/
inductive Intake where
  /-- A line; the flag says that a line end followed it. -/
  | line (text : List Char) (ended : Bool)
  | waiting
  | closed

/-- Reads a line from the stream 0. -/
def readLine (m : Machine) : Intake × Machine :=
  let cut (cs : List Char) : List Char × List Char :=
    (cs.takeWhile (· ≠ '\n'), (cs.dropWhile (· ≠ '\n')).drop 1)
  match m.stream? 0 with
  | some .input =>
    let (line, rest) := cut m.input
    if m.input.contains '\n' then (.line line true, { m with input := rest })
    else if m.inputEnds then (.line line false, { m with input := [] })
    else (.waiting, m)
  | some (.text cs) =>
    let (line, rest) := cut cs
    (.line line (cs.contains '\n'), m.connect 0 (some (.text rest)))
  | some .void => (.line [] false, m)
  | _ => (.closed, m)

/-- The value of a parameter that every script has, or of a named one. -/
def value? (m : Machine) (name : List Char) : Option (List Char) :=
  match name with
  | ['#'] => some (toString m.arguments.length).toList
  | ['?'] => some (toString m.status).toList
  | ['$'] => some processNumber
  | ['0'] => some m.name
  | ['-'] => some []
  | ['!'] => none
  | c :: _ =>
    if c.isDigit then m.arguments[Numeral.valueOf name - 1]? else m.variableOf name
  | [] => none

/-- The value of a name in an arithmetic expression. -/
def number? (m : Machine) (name : List Char) : Option Int :=
  match m.variableOf name with
  | some [] => some 0
  | some cs => signedConstant? cs
  | none => some 0

end Machine

end ProximityLab.Script
