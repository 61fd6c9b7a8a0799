import ProximityLab.Terminal.Basic
import ProximityLab.Terminal.Framer

/-!
# Sessions with a device shell

A session sends command lines to a terminal and reads the output up to the prompt. Its operations
are `Talk`s: they read and change a `Station` (the terminal and the clock) and may be cut short by a
`Halt`. What was read or sent before a halt stays read and sent.

* `Talk.step` classifies one piece of output.
* `Talk.capture` collects lines up to the prompt, the end of the output or a deadline.
* `Talk.discard` drops what is already waiting.
* `Talk.command` discards, sends a line and captures the reply.
-/

namespace ProximityLab

/-- Why an operation ended without a result. -/
inductive Halt where
  | channel (cause : ChannelError)
  /-- The horizon came first. -/
  | hung
  /-- A deadline is beyond what instants can express. -/
  | overflow
  deriving DecidableEq

/-- A terminal, the present moment and the moment at which waiting is given up. -/
structure Station where
  now : Nat
  horizon : Nat
  terminal : Terminal

/-- An operation on a station. -/
abbrev Talk (α : Type) := ExceptT Halt (StateM Station) α

/-- One piece of output as a session sees it. -/
inductive Step where
  | line (text : String)
  | prompt
  | closed
  | deadline
  deriving DecidableEq

/-- How a capture ended. -/
inductive CaptureEnd where
  | prompt
  | closed
  | deadline
  deriving DecidableEq

/-- The output of one command. -/
structure Capture where
  lines : List String
  ending : CaptureEnd
  deriving DecidableEq

namespace Capture

/-- The lines as one text. -/
def text (c : Capture) : String := "\n".intercalate c.lines

/-- The prompt came back. -/
def completed (c : Capture) : Bool := c.ending = .prompt

/-- A capture with a line in front. -/
def behind (line : String) (c : Capture) : Capture := { c with lines := line :: c.lines }

end Capture

/-- The first moment that instants cannot express, in seconds. -/
def lastInstant : Nat := 0x8000000000000000

/-- The moment at which a span that begins now is over. -/
def deadlineAfter (now : Nat) (d : TimeSpan) : Except Halt Nat :=
  if d.seconds + now / 1000 + 1 < lastInstant then .ok (now + d.millisUp) else .error .overflow

namespace Talk

/-- The present moment. -/
def now : Talk Nat := return (← get).now

/-- Ends an operation. -/
def halt {α : Type} (h : Halt) : Talk α := throw h

/-- Waits for output. -/
def await (deadline : Option Nat) : Talk Terminal.Arrival := do
  let s ← get
  let (a, time, terminal) := s.terminal.read s.now s.horizon deadline
  set { s with now := time, terminal := terminal }
  return a

/-- Reads one piece of output. -/
def step (deadline : Option Nat) : Talk Step := do
  match ← await deadline with
  | .output (.line text) => return if isPrompt text then .prompt else .line text
  | .output .eof => return .closed
  | .output (.fault cause) => halt (.channel (.io cause))
  | .deadline => return .deadline
  | .hung => halt .hung

/-- Sends a line without waiting for its output. -/
def dispatch (line : String) : Talk Unit := do
  let s ← get
  let (result, terminal) := s.terminal.send s.now line
  set { s with terminal := terminal }
  match result with
  | .ok () => return ()
  | .error cause => halt (.channel cause)

/-- Collects lines, at most `fuel` of them. -/
def captureWithin (deadline : Option Nat) : Nat → Talk Capture
  | 0 => return ⟨[], .closed⟩
  | fuel + 1 => do
    match ← step deadline with
    | .line text => return (← captureWithin deadline fuel).behind text
    | .prompt => return ⟨[], .prompt⟩
    | .closed => return ⟨[], .closed⟩
    | .deadline => return ⟨[], .deadline⟩

/-- Collects lines up to the prompt, the end of the output or a deadline. Each line leaves the
queue, so there are no more of them than the queue holds. -/
def capture (deadline : Option Nat) : Talk Capture := do
  captureWithin deadline ((← get).terminal.queue.length + 1)

/-- Drops waiting lines, at most `fuel` of them. -/
def discardWithin (moment : Nat) : Nat → Talk Nat
  | 0 => return 0
  | fuel + 1 => do
    match ← await (some moment) with
    | .output (.line _) => return (← discardWithin moment fuel) + 1
    | .output (.fault cause) => halt (.channel (.io cause))
    | _ => return 0

/-- Drops the lines that are already waiting, prompts included, and gives their number. -/
def discard : Talk Nat := do
  let s ← get
  discardWithin s.now (s.terminal.queue.length + 1)

/-- The deadline of a span that begins now. -/
def deadlineIn (d : TimeSpan) : Talk Nat := do
  match deadlineAfter (← now) d with
  | .ok moment => return moment
  | .error h => halt h

/-- Sends a line, after dropping stale output, and captures the reply. -/
def command (limit : TimeSpan) (line : String) : Talk Capture := do
  let _ ← discard
  dispatch line
  capture (some (← deadlineIn limit))

/-- Lets time pass. -/
def sleep (d : TimeSpan) : Talk Unit := do
  let s ← get
  let moment := s.now + d.millisUp
  if moment ≤ s.horizon then set { s with now := moment }
  else
    set { s with now := s.horizon }
    halt .hung

/-- Closes the terminal. -/
def close : Talk Unit := do
  let s ← get
  let (result, terminal) := s.terminal.close
  set { s with terminal := terminal }
  match result with
  | .ok () => return ()
  | .error cause => halt (.channel cause)

end Talk

end ProximityLab
