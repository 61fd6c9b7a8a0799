import ProximityLab.FileSystem.Basic
import ProximityLab.Time.Span

/-!
# Terminals

A `Terminal` is one open connection to a device. What the device does is a `Behaviour`: what it
prints at first and what it answers to each line, given the lines before it. Output is queued with
the moment at which it can be read; no output overtakes what is in front of it, so the queue is a
timeline (`Terminal.Timeline`).

* `send` answers a line by queueing the device's reply.
* `close` ends the connection; it can be repeated and is counted.
* `read` waits for the next output up to a deadline. Output that is due when the deadline comes is
  read first.

Moments are counted in whole milliseconds. Every wait is bounded by a `horizon`, at which the
waiting party is given up.
-/

namespace ProximityLab

/-- A failure of the control channel. -/
inductive ChannelError where
  | closed
  | io (cause : String)
  deriving DecidableEq

/-- The failure for people to read. -/
def ChannelError.message : ChannelError → String
  | .closed => "control channel is closed"
  | .io cause => s!"control channel I/O failed: {cause}"

/-- One thing that a device puts out. -/
inductive Output where
  | line (text : String)
  /-- The end of the output; nothing behind it is ever read. -/
  | eof
  /-- Reading fails once. -/
  | fault (cause : String)
  deriving DecidableEq

/-- Output that falls due some milliseconds after it was caused. -/
structure Timed where
  delay : Nat
  output : Output
  deriving DecidableEq

/-- What sending a line leads to. -/
inductive Reply where
  /-- The device takes the line and puts something out. -/
  | accepted (items : List Timed)
  /-- The line does not reach the device. -/
  | refused (cause : ChannelError)

/-- What a device does. -/
structure Behaviour where
  /-- What it prints when the terminal is opened. -/
  banner : List Timed
  /-- What a line leads to, given all lines before it, refused ones included. -/
  respond : List String → String → Reply
  /-- Why closing the terminal fails, if it does. -/
  closeFault : Option String
  /-- What a device that has taken these lines leaves in files. -/
  leaves : List String → List FileWrite

/-- Output and the moment at which it can be read. -/
structure Due where
  time : Nat
  output : Output
  deriving DecidableEq

/-- A line that was tried on a terminal, and when. -/
structure Trial where
  time : Nat
  line : String
  /-- The device has taken the line. -/
  taken : Bool
  deriving DecidableEq

/-- An open connection to a device. -/
structure Terminal where
  behaviour : Behaviour
  /-- The output that nobody has read. -/
  queue : List Due
  /-- All lines that were tried, refused ones included. -/
  trials : List Trial
  closed : Bool
  closes : Nat

/-- The moments of output that is caused at `now` behind output that is due at `last`. -/
def schedule (now last : Nat) : List Timed → List Due
  | [] => []
  | t :: ts =>
    let time := max last (now + t.delay)
    ⟨time, t.output⟩ :: schedule now time ts

namespace Terminal

/-- All lines, refused ones included. -/
def attempts (t : Terminal) : List String := t.trials.map (·.line)

/-- The lines that the device has taken. -/
def sent (t : Terminal) : List String := (t.trials.filter (·.taken)).map (·.line)

/-- The terminal after one more line was tried on it. -/
def tried (now : Nat) (line : String) (taken : Bool) (t : Terminal) : Terminal :=
  { t with trials := t.trials ++ [⟨now, line, taken⟩] }

/-- The moment of the last output in the queue. -/
def lastDue (queue : List Due) : Nat := (queue.getLast?.map (·.time)).getD 0

/-- Queues output behind what is there. -/
def enqueue (now : Nat) (items : List Timed) (queue : List Due) : List Due :=
  queue ++ schedule now (lastDue queue) items

/-- A terminal that is opened at a moment. -/
def opened (now : Nat) (b : Behaviour) : Terminal :=
  { behaviour := b, queue := enqueue now b.banner [], trials := [], closed := false, closes := 0 }

/-- Sends a line. -/
def send (now : Nat) (line : String) (t : Terminal) : Except ChannelError Unit × Terminal :=
  if t.closed then (.error .closed, t)
  else
    match t.behaviour.respond t.attempts line with
    | .refused cause => (.error cause, t.tried now line false)
    | .accepted items =>
      (.ok (), { t.tried now line true with queue := enqueue now items t.queue })

/-- Closes the terminal. -/
def close (t : Terminal) : Except ChannelError Unit × Terminal :=
  (match t.behaviour.closeFault with
    | some cause => .error (.io cause)
    | none => .ok (),
    { t with closed := true, closes := t.closes + 1 })

/-- What a wait for output ends with. -/
inductive Arrival where
  | output (o : Output)
  | deadline
  | hung
  deriving DecidableEq

/-- The moment at which output that is due at `due` is read by someone who waits from `now` on. -/
def readAt (now due : Nat) : Nat := max now due

/-- A moment that is not after a deadline; one that has passed counts as being now. -/
def inTime (now : Nat) (deadline : Option Nat) (moment : Nat) : Bool :=
  deadline.all fun d => decide (moment ≤ max now d)

/-- The end of a wait in which no output comes. -/
def expire (now horizon : Nat) (deadline : Option Nat) : Arrival × Nat :=
  match deadline with
  | some d => if max now d ≤ horizon then (.deadline, max now d) else (.hung, horizon)
  | none => (.hung, horizon)

/-- Waits for output in a queue: what the wait ends with, when, and what is left in the queue. The
end of the output stays in the queue. -/
def await (now horizon : Nat) (deadline : Option Nat) : List Due → Arrival × Nat × List Due
  | [] =>
    let (a, time) := expire now horizon deadline
    (a, time, [])
  | d :: queue =>
    let time := readAt now d.time
    if inTime now deadline time && time ≤ horizon then
      (.output d.output, time, if d.output = .eof then d :: queue else queue)
    else
      let (a, time) := expire now horizon deadline
      (a, time, d :: queue)

/-- Waits for output. A closed terminal has none. -/
def read (now horizon : Nat) (deadline : Option Nat) (t : Terminal) : Arrival × Nat × Terminal :=
  if t.closed then (.output .eof, now, t)
  else
    let (a, time, queue) := await now horizon deadline t.queue
    (a, time, { t with queue := queue })

/-! ## What was tried -/

/-- What a device has taken was tried. -/
theorem sent_sublist_attempts (t : Terminal) : t.sent.Sublist t.attempts :=
  List.filter_sublist.map _

@[simp] theorem attempts_tried (now : Nat) (line : String) (taken : Bool) (t : Terminal) :
    (t.tried now line taken).attempts = t.attempts ++ [line] := by
  simp [tried, attempts]

/-! ## The queue is a timeline -/

theorem schedule_sorted (now last : Nat) (items : List Timed) :
    (schedule now last items).Pairwise (fun a b => a.time ≤ b.time) ∧
      ∀ d ∈ schedule now last items, last ≤ d.time := by
  induction items generalizing last with
  | nil => simp [schedule]
  | cons t ts ih =>
    obtain ⟨hp, hl⟩ := ih (max last (now + t.delay))
    refine ⟨List.pairwise_cons.2 ⟨hl, hp⟩, fun d hd => ?_⟩
    rcases List.mem_cons.1 hd with rfl | hd
    · exact Nat.le_max_left _ _
    · exact Nat.le_trans (Nat.le_max_left _ _) (hl d hd)

theorem le_lastDue {queue : List Due} (h : queue.Pairwise fun a b => a.time ≤ b.time) {d : Due}
    (hd : d ∈ queue) : d.time ≤ lastDue queue := by
  obtain ⟨front, last, rfl⟩ : ∃ front last, queue = front ++ [last] :=
    ⟨queue.dropLast, queue.getLast (List.ne_nil_of_mem hd), (List.dropLast_concat_getLast _).symm⟩
  rcases List.mem_append.1 hd with hd | hd
  · simpa [lastDue] using (List.pairwise_append.1 h).2.2 d hd last (by simp)
  · simp_all [lastDue]

theorem enqueue_sorted (now : Nat) (items : List Timed) {queue : List Due}
    (h : queue.Pairwise fun a b => a.time ≤ b.time) :
    (enqueue now items queue).Pairwise fun a b => a.time ≤ b.time := by
  obtain ⟨hp, hl⟩ := schedule_sorted now (lastDue queue) items
  exact List.pairwise_append.2 ⟨h, hp, fun a ha b hb => Nat.le_trans (le_lastDue h ha) (hl b hb)⟩

/-- The output of a terminal comes in the order in which it was caused. -/
def Timeline (t : Terminal) : Prop := t.queue.Pairwise fun a b => a.time ≤ b.time

theorem timeline_opened (now : Nat) (b : Behaviour) : (opened now b).Timeline :=
  enqueue_sorted now b.banner .nil

theorem timeline_send (now : Nat) (line : String) {t : Terminal} (h : t.Timeline) :
    (send now line t).2.Timeline := by
  unfold send
  split
  · exact h
  · split
    · exact h
    · exact enqueue_sorted now _ h

theorem timeline_read (now horizon : Nat) (deadline : Option Nat) {t : Terminal} (h : t.Timeline) :
    (read now horizon deadline t).2.2.Timeline := by
  unfold read
  split
  · exact h
  · cases hq : t.queue with
    | nil => simp [await, Timeline]
    | cons d queue =>
      have hs : (d :: queue).Pairwise fun a b => a.time ≤ b.time := hq ▸ h
      simp only [await, Timeline]
      split
      · split
        · exact hs
        · exact (List.pairwise_cons.1 hs).2
      · exact hs

end Terminal

end ProximityLab
