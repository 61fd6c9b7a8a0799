import ProximityLab.Campaign.Vigil

/-!
# Running a campaign

`Campaign.run` starts a campaign on every node and then waits for each of them. Starting takes no
time; a node that cannot be started has failed and the others go on. Each node has its own deadline
and its own vigil, so how long one takes has no effect on another. No node may be taking part in a
campaign already.
-/

namespace ProximityLab

/-- A campaign: what the devices are told, what is added to its deadline and how long stopped nodes
may go on. -/
structure Campaign where
  params : Params
  slack : TimeSpan
  grace : TimeSpan
  deriving DecidableEq

/-- A request to stop: made from the beginning, or some milliseconds later. -/
structure StopSignal where
  initial : Bool
  after : Option Nat
  deriving DecidableEq

namespace StopSignal

/-- A signal that is never given. -/
def never : StopSignal := ⟨false, none⟩

/-- The moment at which a signal that is counted from `origin` is seen by someone who looks from
`start` on. -/
def moment (s : StopSignal) (origin start : Nat) : Option Nat :=
  if s.initial then some start else s.after.map fun d => max start (origin + d)

theorem le_moment {s : StopSignal} {origin start m : Nat} (h : s.moment origin start = some m) :
    start ≤ m := by
  unfold moment at h
  split at h
  · exact Nat.le_of_eq (Option.some.inj h)
  · obtain ⟨d, -, rfl⟩ := Option.map_eq_some_iff.1 h
    exact Nat.le_max_left _ _

end StopSignal

/-- How a run ends. -/
inductive RunEnd where
  /-- Every node has left the campaign. -/
  | done
  /-- A node was still taking part in another campaign. -/
  | busy (cause : NodeError)
  /-- The run was given up at the cut. -/
  | cut
  /-- A moment was beyond what instants can express. -/
  | overflow
  deriving DecidableEq

/-- What a run leaves behind: how it ended, when, the nodes right after the start lines were sent,
and the nodes at the end. -/
structure RunResult where
  ending : RunEnd
  time : Nat
  started : List Node
  nodes : List Node

/-- A node that was sent its start line, with its deadline if it has one. -/
structure Started where
  node : Node
  deadline : Option Nat

/-- The node has taken its start line and is waited for. -/
def Started.awaited (s : Started) : Bool := s.node.phase = .awaiting

namespace Campaign

/-- How long nodes are waited for from `now` on. -/
def deadline (c : Campaign) (now : Nat) : Except Halt (Option Nat) :=
  match c.params.timeout c.slack with
  | .error .overflow => .error .overflow
  | .ok none => .ok none
  | .ok (some d) => (deadlineAfter now d).map some

/-- Sends the start line to a node. One whose device does not take it has failed. -/
def startNode (c : Campaign) (now : Nat) (n : Node) : Node :=
  match n.terminal.send now (startLine c.params) with
  | (.ok (), t) => { n with terminal := t, phase := .awaiting }
  | (.error cause, t) => (n.withTerminal t).finish [] (.failed cause.message)

/-- The deadline of a node that was sent its start line; one that has failed has none. -/
def deadlineOf (c : Campaign) (now : Nat) (n : Node) : Except Halt (Option Nat) :=
  if n.phase = .awaiting then c.deadline now else .ok none

/-- Starts nodes, up to and including the first whose deadline is beyond what instants can express;
the others are not touched. Gives the deadline of each. -/
def startAll (c : Campaign) (now : Nat) : List Node → Except Halt (List (Option Nat)) × List Node
  | [] => (.ok [], [])
  | n :: ns =>
    let n := c.startNode now n
    match c.deadlineOf now n with
    | .error h => (.error h, n :: ns)
    | .ok deadline =>
      let (deadlines, ns) := startAll c now ns
      (deadlines.map (deadline :: ·), n :: ns)

/-- The vigil for a node with this deadline. -/
def vigil (c : Campaign) (now cut : Nat) (stop deadline : Option Nat) : Vigil :=
  ⟨now, stop, deadline, c.grace, cut⟩

/-- What has become of the nodes that are waited for: all nodes, the moment at which the last of
them finished, and whether one was given up or went out of the range of instants. -/
structure Progress where
  nodes : List Node
  time : Nat
  gaveUp : Bool
  overflow : Option Nat

/-- A node after its vigil. -/
def settle (n : Node) : VigilEnd × Terminal → Node
  | (.finished lines outcome _, t) => (n.withTerminal t).finish lines outcome
  | (_, t) => n.withTerminal t

namespace Progress

/-- Notes how one more vigil has ended. -/
def note (p : Progress) : VigilEnd → Progress
  | .finished _ _ time => { p with time := max p.time time }
  | .cut => { p with gaveUp := true }
  | .overflow time => { p with overflow := p.overflow.or (some time) }

/-- The vigil for one more node. Behind a node that went out of the range of instants nobody is
stopped any more, and nobody is waited for any longer. -/
def limit (p : Progress) (v : Vigil) : Vigil :=
  match p.overflow with
  | some time => { v with stop := none, cut := min v.cut time }
  | none => v

end Progress

/-- Waits for the node that stands at place `i`, after others. -/
def awaitNode (vigil : Option Nat → Vigil) (p : Progress) (s : Started) (i : Nat) : Progress :=
  let result := (p.limit (vigil s.deadline)).watch s.node.terminal
  { p with nodes := p.nodes.set i (settle s.node result) }.note result.1

/-- The nodes that are waited for, each with its own deadline and at its place. -/
def pending (started : List Node) (deadlines : List (Option Nat)) : List (Started × Nat) :=
  (started.zipWith Started.mk deadlines).zipIdx.filter (·.1.awaited)

/-- Waits for all nodes that were started and have not failed. -/
def awaitAll (vigil : Option Nat → Vigil) (now : Nat) (started : List Node)
    (deadlines : List (Option Nat)) : Progress :=
  (pending started deadlines).foldl (fun p e => awaitNode vigil p e.1 e.2)
    ⟨started, now, false, none⟩

/-- Runs a campaign from `now` on, given up at `cut`; it is to be stopped at `stop`. -/
def run (c : Campaign) (now cut : Nat) (stop : Option Nat) (nodes : List Node) : RunResult :=
  match nodes.find? (·.phase.inFlight) with
  | some n => ⟨.busy (.notIdle n.id "start an epoch"), now, nodes, nodes⟩
  | none =>
    match c.params.timeout c.slack with
    | .error _ => ⟨.overflow, now, nodes, nodes⟩
    | .ok _ =>
      match c.startAll now nodes with
      | (.error _, reached) => ⟨.overflow, now, reached, reached⟩
      | (.ok deadlines, started) =>
        let p := awaitAll (c.vigil now cut stop) now started deadlines
        let ended (ending : RunEnd) (time : Nat) : RunResult := ⟨ending, time, started, p.nodes⟩
        match p.overflow with
        | some time => ended .overflow time
        | none => if p.gaveUp then ended .cut cut else ended .done p.time

end Campaign

end ProximityLab
