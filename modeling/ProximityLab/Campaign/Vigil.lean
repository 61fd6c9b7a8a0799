import ProximityLab.Campaign.Node

/-!
# Waiting for a campaign's end

A `Vigil` waits for the end of one node's part of a campaign: for the prompt, the end of the output
or a read error, but not beyond a deadline. When the campaign is to be stopped, the vigil sends the
stop line and goes on for a grace period, never longer than the deadline. It is given up at the
moment `cut`.

`gather` reads a timeline of output up to the first item that ends the campaign, as long as the
moments are admitted; `Vigil.watch` puts together at most two such readings.
-/

namespace ProximityLab

/-- What ends the output of a campaign. -/
inductive Ending where
  | prompt
  | eof
  | fault (cause : String)
  deriving DecidableEq

/-- The line is no prompt, or the item ends the campaign. -/
def Output.ending? : Output → Option Ending
  | .line text => if isPrompt text then some .prompt else none
  | .eof => some .eof
  | .fault cause => some (.fault cause)

/-- The line that an item holds, if it is one. -/
def Output.line? : Output → Option String
  | .line text => some text
  | _ => none

/-- What is found in a timeline. -/
structure Gathered where
  /-- The lines before the ending. -/
  lines : List String
  /-- The ending and its moment. -/
  ending : Option (Ending × Nat)
  /-- The output that is left. -/
  rest : List Due

/-- Reads a timeline from a moment on up to the first ending, as long as moments are admitted. The
end of the output is not taken away. -/
def gather (admits : Nat → Bool) (now : Nat) : List Due → Gathered
  | [] => ⟨[], none, []⟩
  | d :: queue =>
    let time := max now d.time
    if admits time then
      match d.output.ending? with
      | some e => ⟨[], some (e, time), if d.output = .eof then d :: queue else queue⟩
      | none =>
        let g := gather admits time queue
        { g with lines := d.output.line?.toList ++ g.lines }
    else ⟨[], none, d :: queue⟩

/-- Reads the output of a terminal; a closed one is at its end. -/
def Terminal.gather (admits : Nat → Bool) (now : Nat) (t : Terminal) : Gathered :=
  if t.closed then ⟨[], if admits now then some (.eof, now) else none, t.queue⟩
  else ProximityLab.gather admits now t.queue

/-- What a vigil has to keep to. All moments but `start` are later than it or the same. -/
structure Vigil where
  start : Nat
  /-- The moment at which the campaign is to be stopped. -/
  stop : Option Nat
  deadline : Option Nat
  grace : TimeSpan
  /-- The moment after which nothing happens. -/
  cut : Nat

/-- How a vigil ends. -/
inductive VigilEnd where
  | finished (lines : List String) (outcome : Outcome) (time : Nat)
  | cut
  /-- The end of the grace period is beyond what instants can express. -/
  | overflow (time : Nat)

/-- The outcome of a campaign that output has ended. -/
def Ending.outcome (stopping : Bool) : Ending → Outcome
  | .prompt => if stopping then .stopped else .completed
  | .eof => .failed "control channel closed"
  | .fault cause => .failed (ChannelError.io cause).message

/-- The earlier of two deadlines. -/
def earlier (deadline : Option Nat) (moment : Nat) : Nat :=
  match deadline with
  | some d => min d moment
  | none => moment

namespace Vigil

/-- The moment is not after the deadline and not after the cut. -/
def admits (v : Vigil) (deadline : Option Nat) (time : Nat) : Bool :=
  deadline.all (fun d => decide (time ≤ d)) && time ≤ v.cut

/-- The moment is before the stop. -/
def beforeStop (v : Vigil) (time : Nat) : Bool := v.stop.all fun s => decide (time < s)

/-- The end of a vigil in which the output does not end. -/
def lapse (v : Vigil) (deadline : Option Nat) (lines : List String) : VigilEnd :=
  match deadline with
  | some d => if d ≤ v.cut then .finished lines .timedOut d else .cut
  | none => .cut

/-- The vigil after the stop line was sent at the moment `s`. -/
def watchStopped (v : Vigil) (s : Nat) (lines : List String) (t : Terminal) : VigilEnd × Terminal :=
  match deadlineAfter s v.grace with
  | .error _ => (.overflow s, t)
  | .ok moment =>
    let deadline := earlier v.deadline moment
    let g := t.gather (v.admits (some deadline)) s
    let t := { t with queue := g.rest }
    match g.ending with
    | some (e, time) => (.finished (lines ++ g.lines) (e.outcome true) time, t)
    | none => (v.lapse (some deadline) (lines ++ g.lines), t)

/-- The moment of the stop, if it comes before the deadline and before the cut. -/
def stopsAt (v : Vigil) : Option Nat := v.stop.filter (v.admits v.deadline)

/-- Waits for the end of a campaign. -/
def watch (v : Vigil) (t : Terminal) : VigilEnd × Terminal :=
  let g := t.gather (fun time => v.admits v.deadline time && v.beforeStop time) v.start
  let t := { t with queue := g.rest }
  match g.ending with
  | some (e, time) => (.finished g.lines (e.outcome false) time, t)
  | none =>
    match v.stopsAt with
    | some s =>
      match t.send s stopLine with
      | (.error cause, t) => (.finished g.lines (.failed cause.message) s, t)
      | (.ok (), t) => v.watchStopped s g.lines t
    | none => (v.lapse v.deadline g.lines, t)

end Vigil

end ProximityLab
