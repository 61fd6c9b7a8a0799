import ProximityLab.Proofs.Campaign.Timeline
import ProximityLab.Proofs.Session.Talk
import Mathlib.Data.List.TakeWhile

/-!
# Reading from a session

The two ways in which a session reads from an open terminal, as functions of the queue:

- `run_discardWithin`: what is due is dropped, up to the end of the output. A read error that is met
  there is the result.
- `run_captureWithin`: output is gathered up to the first item that ends it (`gather`), or to the
  deadline.
-/

namespace ProximityLab

/-- The failure of a read, if the item is one. -/
def Output.fault? : Output → Option String
  | .fault cause => some cause
  | _ => none

/-- The item is due at a moment and can be dropped then. Nothing is dropped at the end of the
output, and a closed terminal is at its end. -/
def Terminal.isStale (now : Nat) (t : Terminal) (d : Due) : Bool :=
  !t.closed && (decide (d.time ≤ now) && decide (d.output ≠ .eof))

/-- The output that is dropped at a moment. -/
def Terminal.stale (now : Nat) (t : Terminal) : List Due := t.queue.takeWhile (t.isStale now)

/-- The output that is left then. -/
def Terminal.kept (now : Nat) (t : Terminal) : List Due := t.queue.dropWhile (t.isStale now)

theorem Terminal.stale_append_kept (now : Nat) (t : Terminal) :
    t.stale now ++ t.kept now = t.queue :=
  List.takeWhile_append_dropWhile

/-- What is left begins with output that is still to come, or with the end of the output. -/
theorem Terminal.head?_kept {now : Nat} {t : Terminal} {d : Due} (h : d ∈ (t.kept now).head?) :
    t.isStale now d = false := by
  have hhead := List.head?_dropWhile_not (t.isStale now) t.queue
  rw [kept, Option.mem_def] at h
  rw [h] at hhead
  simpa using hhead

/-- What is stale is due, and can be read. -/
theorem Terminal.of_mem_stale {now : Nat} {t : Terminal} {d : Due} (h : d ∈ t.stale now) :
    t.closed = false ∧ d.time ≤ now ∧ d.output ≠ .eof := by
  simpa [Terminal.isStale] using List.mem_takeWhile_imp h

theorem line_of_fault?_eq_none {o : Output} (hfault : o.fault? = none) (heof : o ≠ .eof) :
    ∃ text, o = .line text := by
  cases o with
  | line text => exact ⟨text, rfl⟩
  | eof => exact absurd rfl heof
  | fault cause => cases hfault

/-- What a capture of these lines comes to when they end like this. -/
def Ending.captured (lines : List String) : Ending → Except Halt Capture
  | .prompt => .ok ⟨lines, .prompt⟩
  | .eof => .ok ⟨lines, .closed⟩
  | .fault cause => .error (.channel (.io cause))

namespace Talk

variable {s : Station}

/-- The station with another queue at another moment. -/
def seeing (s : Station) (now : Nat) (queue : List Due) : Station :=
  { s with now := now, terminal := { s.terminal with queue := queue } }

/-- The moments up to a deadline, if a wait may go on so long. -/
def within (s : Station) (deadline : Nat) (time : Nat) : Bool :=
  decide (time ≤ deadline ∧ time ≤ s.horizon)

/-! ## One item -/

/-- Waiting for output, in terms of the queue. -/
theorem run_await_of_open (deadline : Option Nat) (hopen : s.terminal.closed = false) :
    (await deadline).run.run s =
      let r := Terminal.await s.now s.horizon deadline s.terminal.queue
      (.ok r.1, seeing s r.2.1 r.2.2) := by
  rw [run_await, Terminal.read, if_neg (by simp [hopen])]
  rfl

/-- A wait until a moment that has not passed ends there at the latest. -/
theorem expire_of_le {now horizon deadline : Nat} (h : now ≤ deadline) :
    Terminal.expire now horizon (some deadline) =
      if deadline ≤ horizon then (.deadline, deadline) else (.hung, horizon) := by
  rw [Terminal.expire, Nat.max_eq_right h]

theorem await_cons_of_le {now horizon deadline : Nat} (h : now ≤ deadline) (d : Due)
    (queue : List Due) :
    Terminal.await now horizon (some deadline) (d :: queue) =
      if max now d.time ≤ deadline ∧ max now d.time ≤ horizon then
        (.output d.output, max now d.time, if d.output = .eof then d :: queue else queue)
      else
        let r := Terminal.expire now horizon (some deadline)
        (r.1, r.2, d :: queue) := by
  have htest : (Terminal.inTime now (some deadline) (Terminal.readAt now d.time) &&
      decide (Terminal.readAt now d.time ≤ horizon)) = true ↔
        max now d.time ≤ deadline ∧ max now d.time ≤ horizon := by
    rw [Bool.and_eq_true, decide_eq_true_eq, Terminal.inTime, Option.all_some, decide_eq_true_eq,
      Nat.max_eq_right h]
    rfl
  rw [Terminal.await]
  dsimp only
  by_cases hd : max now d.time ≤ deadline ∧ max now d.time ≤ horizon
  · rw [if_pos (htest.2 hd), if_pos hd]
    rfl
  · rw [if_neg fun ha => hd (htest.1 ha), if_neg hd]

/-- An item that comes in time is read at its moment. -/
theorem run_step_of_within {deadline : Nat} {d : Due} {queue : List Due}
    (hopen : s.terminal.closed = false) (hq : s.terminal.queue = d :: queue)
    (hnow : s.now ≤ deadline) (hd : within s deadline (max s.now d.time) = true) :
    (step (some deadline)).run.run s =
      match d.output with
      | .line text =>
        (.ok (if isPrompt text then .prompt else .line text), seeing s (max s.now d.time) queue)
      | .eof => (.ok .closed, seeing s (max s.now d.time) (d :: queue))
      | .fault cause => (.error (.channel (.io cause)), seeing s (max s.now d.time) queue) := by
  rw [step, run_bind, run_await_of_open _ hopen, hq, await_cons_of_le hnow,
    if_pos (of_decide_eq_true hd)]
  cases d.output <;> rfl

/-- When nothing comes in time, it is the deadline that comes. -/
theorem run_step_lapse {deadline : Nat} (hopen : s.terminal.closed = false)
    (hnow : s.now ≤ deadline)
    (hd : ∀ d ∈ s.terminal.queue.head?, within s deadline (max s.now d.time) = false) :
    (step (some deadline)).run.run s =
      if deadline ≤ s.horizon then (.ok .deadline, seeing s deadline s.terminal.queue)
      else (.error .hung, seeing s s.horizon s.terminal.queue) := by
  have hexpire : Terminal.await s.now s.horizon (some deadline) s.terminal.queue =
      let r := Terminal.expire s.now s.horizon (some deadline)
      (r.1, r.2, s.terminal.queue) := by
    cases hq : s.terminal.queue with
    | nil => rfl
    | cons d queue =>
      rw [hq] at hd
      rw [await_cons_of_le hnow, if_neg (of_decide_eq_false (hd d rfl))]
  rw [step, run_bind, run_await_of_open _ hopen, hexpire, expire_of_le hnow]
  by_cases hh : deadline ≤ s.horizon
  · simp only [hh, if_true]
    rfl
  · simp only [hh, if_false]
    rfl

/-! ## Dropping what is due -/

/-- Lines that are due are dropped one by one. -/
theorem run_discardWithin_lines (hopen : s.terminal.closed = false) (hnow : s.now ≤ s.horizon)
    {front rest : List Due} (hq : s.terminal.queue = front ++ rest)
    (hfront : ∀ d ∈ front, d.time ≤ s.now ∧ ∃ text, d.output = .line text) {fuel : Nat}
    {result : Except Halt Nat} {s' : Station}
    (hrest : (discardWithin s.now fuel).run.run (seeing s s.now rest) = (result, s')) :
    (discardWithin s.now (fuel + front.length)).run.run s =
      (result.map (· + front.length), s') := by
  induction front generalizing s with
  | nil =>
    rw [seeing, ← List.nil_append rest, ← hq] at hrest
    rw [List.length_nil, Nat.add_zero, hrest]
    cases result <;> rfl
  | cons d front ih =>
    obtain ⟨⟨hd, text, ho⟩, hfront⟩ := List.forall_mem_cons.1 hfront
    have hmore := ih (s := seeing s s.now (front ++ rest)) hopen hnow rfl hfront hrest
    rw [List.length_cons, ← Nat.add_assoc, discardWithin, run_bind, run_await_of_open _ hopen, hq,
      List.cons_append, await_cons_of_le (Nat.le_refl _), Nat.max_eq_left hd,
      if_pos ⟨Nat.le_refl _, hnow⟩, ho, if_neg nofun]
    dsimp only
    rw [run_map, show (discardWithin s.now (fuel + front.length)).run.run _ = _ from hmore]
    cases result <;> rfl

/-- Nothing is dropped in front of what is still to come and of the end of the output. -/
theorem run_discardWithin_kept (hopen : s.terminal.closed = false) (hnow : s.now ≤ s.horizon)
    (hkept : ∀ d ∈ s.terminal.queue.head?, s.terminal.isStale s.now d = false) (fuel : Nat) :
    (discardWithin s.now (fuel + 1)).run.run s = (.ok 0, s) := by
  rw [discardWithin, run_bind, run_await_of_open _ hopen]
  cases hq : s.terminal.queue with
  | nil =>
    rw [Terminal.await, expire_of_le (Nat.le_refl _), if_pos hnow, ← hq]
    rfl
  | cons d queue =>
    have hd := hkept d (by rw [hq]; rfl)
    simp only [Terminal.isStale, hopen, Bool.not_false, Bool.true_and, Bool.and_eq_false_iff,
      decide_eq_false_iff_not, not_not] at hd
    rw [await_cons_of_le (Nat.le_refl _)]
    by_cases hdue : d.time ≤ s.now
    · have ho : d.output = .eof := hd.resolve_left fun h => h hdue
      rw [Nat.max_eq_left hdue, if_pos ⟨Nat.le_refl _, hnow⟩, if_pos ho, ho, ← hq]
      rfl
    · rw [if_neg (by omega), expire_of_le (Nat.le_refl _), if_pos hnow, ← hq]
      rfl

theorem run_discardWithin_fault (hopen : s.terminal.closed = false) (hnow : s.now ≤ s.horizon)
    {d : Due} {rest : List Due} {cause : String} (hq : s.terminal.queue = d :: rest)
    (hd : d.time ≤ s.now) (ho : d.output = .fault cause) (fuel : Nat) :
    (discardWithin s.now (fuel + 1)).run.run s =
      (.error (.channel (.io cause)), seeing s s.now rest) := by
  rw [discardWithin, run_bind, run_await_of_open _ hopen, hq, await_cons_of_le (Nat.le_refl _),
    Nat.max_eq_left hd, if_pos ⟨Nat.le_refl _, hnow⟩, ho, if_neg nofun]
  rfl

theorem run_discard_eq (s : Station) :
    discard.run.run s = (discardWithin s.now (s.terminal.queue.length + 1)).run.run s := by
  rw [discard, run_bind, run_get]

/-- Nothing is read from a closed terminal, and nothing in it is stale. -/
theorem run_discard_closed (hclosed : s.terminal.closed = true) :
    discard.run.run s = (.ok 0, s) := by
  rw [run_discard_eq, discardWithin, run_bind, run_await, Terminal.read, if_pos hclosed]
  rfl

/-- Without a read error in it, what is stale is dropped. That takes no time. -/
theorem run_discard (hnow : s.now ≤ s.horizon)
    (h : ∀ d ∈ s.terminal.stale s.now, d.output.fault? = none) :
    discard.run.run s =
      (.ok (s.terminal.stale s.now).length, seeing s s.now (s.terminal.kept s.now)) := by
  cases hclosed : s.terminal.closed with
  | true =>
    have hstale : ∀ d, ¬ s.terminal.isStale s.now d = true := by simp [Terminal.isStale, hclosed]
    rw [run_discard_closed hclosed, Terminal.stale, List.takeWhile_eq_nil_iff.2 fun _ => hstale _,
      Terminal.kept, List.dropWhile_eq_self_iff.2 fun _ => hstale _]
    rfl
  | false =>
    have hsplit := s.terminal.stale_append_kept s.now
    have hlength : s.terminal.queue.length + 1 =
        (s.terminal.kept s.now).length + 1 + (s.terminal.stale s.now).length := by
      rw [← hsplit, List.length_append]
      omega
    have hlines : ∀ d ∈ s.terminal.stale s.now, d.time ≤ s.now ∧ ∃ text, d.output = .line text :=
      fun d hd => by
        obtain ⟨-, hdue, heof⟩ := Terminal.of_mem_stale hd
        exact ⟨hdue, line_of_fault?_eq_none (h d hd) heof⟩
    have hlate : ∀ d ∈ (s.terminal.kept s.now).head?, s.terminal.isStale s.now d = false := fun _ =>
      Terminal.head?_kept
    have hkept :=
      run_discardWithin_kept (s := seeing s s.now (s.terminal.kept s.now)) hclosed hnow hlate
        (s.terminal.kept s.now).length
    have hrun := run_discardWithin_lines hclosed hnow hsplit.symm hlines hkept
    rw [run_discard_eq, hlength, hrun, Except.map, Nat.zero_add]

/-- The first read error in what is stale is the result. What is in front of it is dropped. -/
theorem run_discard_fault (hnow : s.now ≤ s.horizon) {front more : List Due} {time : Nat}
    {cause : String} (hstale : s.terminal.stale s.now = front ++ ⟨time, .fault cause⟩ :: more)
    (hfront : ∀ d ∈ front, d.output.fault? = none) :
    discard.run.run s =
      (.error (.channel (.io cause)), seeing s s.now (more ++ s.terminal.kept s.now)) := by
  have hsplit := s.terminal.stale_append_kept s.now
  rw [hstale, List.append_assoc, List.cons_append] at hsplit
  generalize more ++ s.terminal.kept s.now = rest at hsplit ⊢
  have hmem : ∀ x ∈ front ++ ⟨time, .fault cause⟩ :: more,
      s.terminal.closed = false ∧ x.time ≤ s.now ∧ x.output ≠ .eof := fun x hx =>
    Terminal.of_mem_stale (hstale ▸ hx)
  obtain ⟨hopen, hdue, -⟩ := hmem ⟨time, .fault cause⟩ (by simp)
  have hlines : ∀ x ∈ front, x.time ≤ s.now ∧ ∃ text, x.output = .line text := fun x hx =>
    ⟨(hmem x (by simp [hx])).2.1, line_of_fault?_eq_none (hfront x hx) (hmem x (by simp [hx])).2.2⟩
  have hfault :=
    run_discardWithin_fault (s := seeing s s.now (⟨time, .fault cause⟩ :: rest)) hopen hnow rfl hdue
      rfl (rest.length + 1)
  have hrun := run_discardWithin_lines hopen hnow hsplit.symm hlines hfault
  have hlength : s.terminal.queue.length + 1 = rest.length + 1 + 1 + front.length := by
    rw [← hsplit, List.length_append, List.length_cons]
    omega
  rw [run_discard_eq, hlength, hrun]
  rfl

/-! ## Capturing -/

/-- What becomes of a capture that finds this. -/
def captures (s : Station) (deadline : Nat) (g : Gathered) : Except Halt Capture × Station :=
  match g.ending with
  | some (e, time) => (e.captured g.lines, seeing s time g.rest)
  | none =>
    if deadline ≤ s.horizon then (.ok ⟨g.lines, .deadline⟩, seeing s deadline g.rest)
    else (.error .hung, seeing s s.horizon g.rest)

theorem run_captureWithin_lapse {deadline : Nat} (hopen : s.terminal.closed = false)
    (hnow : s.now ≤ deadline)
    (hlate : ∀ d ∈ s.terminal.queue.head?, within s deadline (max s.now d.time) = false)
    (fuel : Nat) :
    (captureWithin (some deadline) (fuel + 1)).run.run s =
      captures s deadline ⟨[], none, s.terminal.queue⟩ := by
  rw [captureWithin, run_bind, run_step_lapse hopen hnow hlate]
  by_cases hh : deadline ≤ s.horizon
  · simp only [captures, hh, if_true]
    rfl
  · simp only [captures, hh, if_false]

/-- A line in front of what a capture finds is in front of its lines. -/
theorem captures_behind (s : Station) (deadline : Nat) (text : String) (g : Gathered) :
    captures s deadline { g with lines := text :: g.lines } =
      ((captures s deadline g).1.map (·.behind text), (captures s deadline g).2) := by
  obtain ⟨lines, _ | ⟨e, time⟩, rest⟩ := g
  · by_cases hh : deadline ≤ s.horizon
    · simp only [captures, hh, if_true]
      rfl
    · simp only [captures, hh, if_false]
      rfl
  · cases e <;> rfl

/-- A capture gathers what comes up to its deadline. -/
theorem run_captureWithin {deadline : Nat} (hopen : s.terminal.closed = false)
    (hnow : s.now ≤ deadline) {fuel : Nat} (hfuel : s.terminal.queue.length < fuel) :
    (captureWithin (some deadline) fuel).run.run s =
      captures s deadline (gather (within s deadline) s.now s.terminal.queue) := by
  generalize hq : s.terminal.queue = queue at hfuel ⊢
  obtain ⟨fuel, rfl⟩ : ∃ k, fuel = k + 1 := ⟨fuel - 1, by omega⟩
  induction queue generalizing s fuel with
  | nil => exact (run_captureWithin_lapse hopen hnow (by simp [hq]) fuel).trans (by rw [hq]; rfl)
  | cons d queue ih =>
    by_cases hd : within s deadline (max s.now d.time) = true
    · rw [captureWithin, run_bind, run_step_of_within hopen hq hnow hd, gather]
      cases ho : d.output with
      | line text =>
        by_cases hp : isPrompt text = true
        · simp only [hd, Output.ending?, hp, if_true]
          rfl
        · obtain ⟨fuel, rfl⟩ : ∃ k, fuel = k + 1 := ⟨fuel - 1, by simp at hfuel; omega⟩
          have hrest : (captureWithin (some deadline) (fuel + 1)).run.run
              (seeing s (max s.now d.time) queue) =
              captures s deadline (gather (within s deadline) (max s.now d.time) queue) :=
            ih (s := seeing s (max s.now d.time) queue) hopen (of_decide_eq_true hd).1 rfl fuel
            (by simpa using hfuel)
          simp only [hp, if_false, Bool.false_eq_true]
          rw [run_map, hrest]
          simp only [hd, Output.ending?, hp, if_true, if_false, Bool.false_eq_true, Output.line?]
          rw [Option.toList_some, List.singleton_append, captures_behind]
      | eof =>
        simp only [hd, Output.ending?, if_true]
        rfl
      | fault cause =>
        simp only [hd, Output.ending?, if_true]
        rfl
    · have hnot := Bool.not_eq_true _ ▸ hd
      refine (run_captureWithin_lapse hopen hnow (by simpa [hq] using hnot) fuel).trans ?_
      simp only [hq, gather, hnot, Bool.false_eq_true, if_false]

/-! ## Commands -/

/-- A command to a closed terminal fails and changes nothing. -/
theorem run_command_closed (limit : TimeSpan) (line : String) (h : s.terminal.closed = true) :
    (command limit line).run.run s = (.error (.channel .closed), s) := by
  rw [command, run_bind, run_discard_closed h]
  dsimp only
  rw [run_bind, run_dispatch, Terminal.send, if_pos h]
  rfl

/-- A command that meets no read error drops what is stale, sends its line and captures what comes
up to its deadline. -/
theorem run_command_of_stale (hnow : s.now ≤ s.horizon)
    (h : ∀ d ∈ s.terminal.stale s.now, d.output.fault? = none) (limit : TimeSpan) (line : String) :
    (command limit line).run.run s =
      match Terminal.send s.now line { s.terminal with queue := s.terminal.kept s.now } with
      | (.error cause, t) => (.error (.channel cause), { s with terminal := t })
      | (.ok (), t) =>
        match deadlineAfter s.now limit with
        | .error e => (.error e, { s with terminal := t })
        | .ok deadline =>
          captures { s with terminal := t } deadline
          (gather (within s deadline) s.now t.queue) := by
  have hcapture : ∀ t : Terminal, t.closed = false →
    (do capture (some (← deadlineIn limit)) : Talk Capture).run.run
      { s with terminal := t } =
        match deadlineAfter s.now limit with
        | .error e => (.error e, { s with terminal := t })
        | .ok deadline =>
          captures { s with terminal := t } deadline
          (gather (within s deadline) s.now t.queue) := by
    intro t hopen
    rw [run_bind, run_deadlineIn]
    cases hd : deadlineAfter s.now limit with
    | error e => rfl
    | ok deadline =>
      dsimp only
      rw [capture, run_bind, run_get]
      exact run_captureWithin (s := { s with terminal := t }) hopen (le_deadlineAfter hd)
        (Nat.lt_succ_self _)
  rw [command, run_bind, run_discard hnow h]
  dsimp only
  rw [run_bind, run_dispatch]
  dsimp only [seeing]
  rcases hsend : Terminal.send s.now line { s.terminal with queue := s.terminal.kept s.now }
    with ⟨cause | ⟨⟩, t⟩
  · rfl
  · exact hcapture t (Terminal.send_eq_ok hsend).2.1

/-- The first read error in what is stale is the result of a command, which sends nothing. -/
theorem run_command_fault (hnow : s.now ≤ s.horizon) {front more : List Due} {time : Nat}
    {cause : String} (hstale : s.terminal.stale s.now = front ++ ⟨time, .fault cause⟩ :: more)
    (hfront : ∀ d ∈ front, d.output.fault? = none) (limit : TimeSpan) (line : String) :
    (command limit line).run.run s =
      (.error (.channel (.io cause)), seeing s s.now (more ++ s.terminal.kept s.now)) := by
  rw [command, run_bind, run_discard_fault hnow hstale hfront]

end Talk

end ProximityLab
