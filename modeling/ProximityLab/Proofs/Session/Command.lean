import ProximityLab.Proofs.Session.Reading
import ProximityLab.Terminal.Scripted

/-!
# What a command makes of the output

A command drops what is stale, sends its line once and captures what comes after that, up to a
prompt, the end of the output or its deadline.

- **The capture** (`Talk.Collects`, `Talk.collects_gather`): how a capture can end, with what it
  leaves in the queue.
- **The ways through a command** (`Talk.Exchange`, `Talk.exchange_command`): whether the line is
  sent, and what the result is.
- **No stale lines** (`Talk.Collects.fresh`): in front of the reply, a capture has only what was
  still to come when the line was sent.
-/

namespace ProximityLab.Talk

/-! ## The capture -/

/-- Lines up to a moment, without a prompt. -/
def InFront (stop : Nat) (front : List Due) : Prop :=
  ∀ d ∈ front, d.time ≤ stop ∧ ∃ text, d.output = .line text ∧ isPrompt text = false

/-- What a capture that begins at `now` makes of a queue: the result, the moment at which it ends,
and the output that it leaves. Waiting is given up at the horizon. -/
inductive Collects (now deadline horizon : Nat) :
    List Due → Except Halt Capture → Nat → List Due → Prop where
  /-- The first prompt ends the capture, and is taken. -/
  | prompt {front rest : List Due} {time : Nat} {text : String}
      (hfront : InFront (min deadline horizon) front) (htime : time ≤ min deadline horizon)
      (hprompt : isPrompt text = true) :
      Collects now deadline horizon (front ++ ⟨time, .line text⟩ :: rest)
        (.ok ⟨linesOf front, .prompt⟩) (max now time) rest
  /-- The end of the output ends the capture, and stays. -/
  | closed {front rest : List Due} {time : Nat} (hfront : InFront (min deadline horizon) front)
      (htime : time ≤ min deadline horizon) :
      Collects now deadline horizon (front ++ ⟨time, .eof⟩ :: rest) (.ok ⟨linesOf front, .closed⟩)
        (max now time) (⟨time, .eof⟩ :: rest)
  /-- A read error is the result, instead of the lines in front of it. -/
  | fault {front rest : List Due} {time : Nat} {cause : String}
      (hfront : InFront (min deadline horizon) front) (htime : time ≤ min deadline horizon) :
      Collects now deadline horizon (front ++ ⟨time, .fault cause⟩ :: rest)
        (.error (.channel (.io cause))) (max now time) rest
  /-- What comes later than the deadline is left. -/
  | deadline {front rest : List Due} (hle : deadline ≤ horizon) (hfront : InFront deadline front)
      (hrest : ∀ d ∈ rest, deadline < d.time) :
      Collects now deadline horizon (front ++ rest) (.ok ⟨linesOf front, .deadline⟩) deadline rest
  /-- The horizon comes before the deadline. -/
  | hung {front rest : List Due} (hlt : horizon < deadline) (hfront : InFront horizon front)
      (hrest : ∀ d ∈ rest, horizon < d.time) :
      Collects now deadline horizon (front ++ rest) (.error .hung) horizon rest

theorem InFront.nil (stop : Nat) : InFront stop [] := fun _ hd => nomatch hd

theorem InFront.cons {stop : Nat} {d : Due} {front : List Due} {text : String} (hd : d.time ≤ stop)
    (ho : d.output = .line text) (hplain : isPrompt text = false) (h : InFront stop front) :
    InFront stop (d :: front) :=
  List.forall_mem_cons.2 ⟨⟨hd, text, ho, hplain⟩, h⟩

theorem linesOf_cons_line {d : Due} {text : String} (ho : d.output = .line text) (rest : List Due) :
    linesOf (d :: rest) = text :: linesOf rest := by
  rw [linesOf, List.filterMap_cons, ho]
  rfl

section Capture

variable {now deadline horizon time : Nat} {queue left : List Due} {result : Except Halt Capture}

/-- A line that comes first is the first line of the capture. -/
theorem Collects.cons {d : Due} {text : String} (hd : d.time ≤ min deadline horizon)
    (ho : d.output = .line text) (hplain : isPrompt text = false)
    (hsorted : ∀ x ∈ queue, d.time ≤ x.time)
    (h : Collects (max now d.time) deadline horizon queue result time left) :
    Collects now deadline horizon (d :: queue) (result.map (·.behind text)) time left := by
  have hmax : ∀ {x : Due}, x ∈ queue → max (max now d.time) x.time = max now x.time := fun hx => by
    rw [Nat.max_assoc, Nat.max_eq_right (hsorted _ hx)]
  have hline := linesOf_cons_line ho
  cases h with
  | @prompt front _ time text hfront htime hprompt =>
    have h : Collects now deadline horizon (d :: front ++ ⟨time, .line text⟩ :: left)
        _ (max now time) left :=
      .prompt (hfront.cons hd ho hplain) htime hprompt
    rw [hline, ← hmax (x := ⟨time, .line text⟩) (by simp)] at h
    exact h
  | @closed front rest time hfront htime =>
    have h : Collects now deadline horizon (d :: front ++ ⟨time, .eof⟩ :: rest) _ (max now time)
        _ :=
      .closed (hfront.cons hd ho hplain) htime
    rw [hline, ← hmax (x := ⟨time, .eof⟩) (by simp)] at h
    exact h
  | @fault front _ time cause hfront htime =>
    have h : Collects now deadline horizon (d :: front ++ ⟨time, .fault cause⟩ :: left)
        _ (max now time) left :=
      .fault (hfront.cons hd ho hplain) htime
    rw [← hmax (x := ⟨time, .fault cause⟩) (by simp)] at h
    exact h
  | @deadline front _ hle hfront hrest =>
    have h : Collects now deadline horizon (d :: front ++ left) _ deadline left :=
      .deadline hle (hfront.cons (by omega) ho hplain) hrest
    rw [hline] at h
    exact h
  | hung hlt hfront hrest => exact .hung hlt (hfront.cons (by omega) ho hplain) hrest

/-- When nothing comes in time, the deadline or the horizon ends the capture. -/
theorem collects_late {s : Station} {g : Gathered} (hlines : g.lines = []) (hnone : g.ending = none)
    (hlate : ∀ d ∈ g.rest, min deadline s.horizon < d.time) :
    ∃ time, Collects now deadline s.horizon g.rest (captures s deadline g).1 time g.rest ∧
      (captures s deadline g).2 = seeing s time g.rest := by
  rw [captures, hnone]
  dsimp only
  by_cases hle : deadline ≤ s.horizon
  · rw [if_pos hle, hlines]
    rw [Nat.min_eq_left hle] at hlate
    exact ⟨deadline, @Collects.deadline _ _ _ [] _ hle (.nil _) hlate, rfl⟩
  · rw [if_neg hle]
    rw [Nat.min_eq_right (by omega)] at hlate
    exact ⟨s.horizon, @Collects.hung _ _ _ [] _ (by omega) (.nil _) hlate, rfl⟩

/-- What comes first and ends a campaign ends a capture. -/
theorem collects_ending {s : Station} {d : Due} {e : Ending} (hd : d.time ≤ min deadline s.horizon)
    (he : d.output.ending? = some e) :
    Collects now deadline s.horizon (d :: queue) (e.captured []) (max now d.time)
      (if d.output = .eof then d :: queue else queue) := by
  obtain ⟨time, output⟩ := d
  cases output with
  | line text =>
    rw [Output.ending?] at he
    split at he
    · rename_i hprompt
      obtain rfl := Option.some.inj he
      exact @Collects.prompt _ _ _ [] _ _ _ (.nil _) hd hprompt
    · cases he
  | eof =>
    obtain rfl := Option.some.inj he
    exact @Collects.closed _ _ _ [] _ _ (.nil _) hd
  | fault cause =>
    obtain rfl := Option.some.inj he
    exact @Collects.fault _ _ _ [] _ _ _ (.nil _) hd

/-- A capture collects what it gathers. -/
theorem collects_gather {s : Station} (hsorted : Sorted queue)
    (hnow : now ≤ min deadline s.horizon) :
    ∃ time left, Collects now deadline s.horizon queue
        (captures s deadline (gather (within s deadline) now queue)).1 time left ∧
      (captures s deadline (gather (within s deadline) now queue)).2 = seeing s time left := by
  have hwithin : ∀ time, within s deadline time = true ↔ time ≤ min deadline s.horizon :=
    fun time => by
      rw [within, decide_eq_true_eq, Nat.le_min]
  induction queue generalizing now with
  | nil =>
    obtain ⟨time, h⟩ : ∃ time, Collects now deadline s.horizon [] _ time [] ∧ _ :=
      collects_late (g := ⟨[], none, []⟩) rfl rfl nofun
    exact ⟨time, [], h⟩
  | cons d queue ih =>
    obtain ⟨hd, hrest⟩ := List.pairwise_cons.1 hsorted
    by_cases hin : within s deadline (max now d.time) = true
    · have hdue : d.time ≤ min deadline s.horizon :=
        Nat.le_trans (Nat.le_max_right _ _) ((hwithin _).1 hin)
      rw [gather, if_pos hin]
      cases he : d.output.ending? with
      | some e => exact ⟨_, _, collects_ending hdue he, rfl⟩
      | none =>
        obtain ⟨text, ho⟩ : ∃ text, d.output = .line text := by
          cases ho : d.output <;> simp_all [Output.ending?]
        have hplain : isPrompt text = false := by simpa [ho, Output.ending?] using he
        obtain ⟨time, left, hcollects, hstation⟩ := ih hrest ((hwithin _).1 hin)
        simp only [ho, Output.line?, Option.toList_some, List.singleton_append]
        rw [captures_behind]
        exact ⟨time, left, hcollects.cons hdue ho hplain hd, hstation⟩
    · have hlate : min deadline s.horizon < d.time := by
        rw [hwithin] at hin
        omega
      rw [gather, if_neg hin]
      obtain ⟨time, h⟩ : ∃ time, Collects now deadline s.horizon (d :: queue) _ time (d :: queue) ∧
          _ :=
        collects_late (g := ⟨[], none, d :: queue⟩) rfl rfl
          (List.forall_mem_cons.2 ⟨hlate, fun x hx => Nat.lt_of_lt_of_le hlate (hd x hx)⟩)
      exact ⟨time, d :: queue, h⟩

/-- The lines of a capture are those in front of the item that ends it. -/
theorem Collects.front {c : Capture} (h : Collects now deadline horizon queue (.ok c) time left) :
    ∃ front, front <+: queue ∧ c.lines = linesOf front ∧
      ∀ d ∈ front, ∃ text, d.output = .line text := by
  have hline : ∀ {stop front}, InFront stop front → ∀ d ∈ front, ∃ text, d.output = .line text :=
    fun hfront d hd => (hfront d hd).2.imp fun _ => And.left
  cases h with
  | prompt hfront htime hprompt => exact ⟨_, List.prefix_append _ _, rfl, hline hfront⟩
  | closed hfront htime => exact ⟨_, List.prefix_append _ _, rfl, hline hfront⟩
  | deadline hle hfront hrest => exact ⟨_, List.prefix_append _ _, rfl, hline hfront⟩

end Capture

/-! ## The command -/

/-- The station after a device took a line. What was stale by then is gone. -/
def answered (s : Station) (line : String) (items : List Timed) : Station :=
  { s with
    terminal := { s.terminal with
      trials := s.terminal.trials ++ [⟨s.now, line, true⟩]
      queue := Terminal.enqueue s.now items (s.terminal.kept s.now) } }

/-- Without a read error in it, what is stale is dropped. -/
def Droppable (s : Station) : Prop := ∀ d ∈ s.terminal.stale s.now, d.output.fault? = none

/-- The ways through a command: the result, and the station after it. -/
inductive Exchange (limit : TimeSpan) (line : String) (s : Station) :
    Except Halt Capture → Station → Prop where
  /-- A read error in what is stale is the result. Nothing is sent. -/
  | fault {front more : List Due} {time : Nat} {cause : String}
      (hstale : s.terminal.stale s.now = front ++ ⟨time, .fault cause⟩ :: more)
      (hfront : ∀ d ∈ front, d.output.fault? = none) :
      Exchange limit line s (.error (.channel (.io cause)))
      (seeing s s.now (more ++ s.terminal.kept s.now))
  /-- A closed terminal takes no line. -/
  | closed (hclosed : s.terminal.closed = true) :
      Exchange limit line s (.error (.channel .closed)) s
  /-- The line is sent, and does not reach the device. -/
  | refused {cause : ChannelError} (hopen : s.terminal.closed = false) (hstale : Droppable s)
      (hrespond : s.terminal.behaviour.respond s.terminal.attempts line = .refused cause) :
      Exchange limit line s (.error (.channel cause))
        { s with terminal := { s.terminal with
          queue := s.terminal.kept s.now
          trials := s.terminal.trials ++ [⟨s.now, line, false⟩] } }
  /-- The line is sent, but there is no such deadline. -/
  | overflow {items : List Timed} {halt : Halt} (hopen : s.terminal.closed = false)
      (hstale : Droppable s)
      (hrespond : s.terminal.behaviour.respond s.terminal.attempts line = .accepted items)
      (hdeadline : deadlineAfter s.now limit = .error halt) :
      Exchange limit line s (.error halt) (answered s line items)
  /-- The line is sent, and what comes after it is captured. -/
  | captured {items : List Timed} {deadline time : Nat} {result : Except Halt Capture}
      {left : List Due} (hopen : s.terminal.closed = false) (hstale : Droppable s)
      (hrespond : s.terminal.behaviour.respond s.terminal.attempts line = .accepted items)
      (hdeadline : deadlineAfter s.now limit = .ok deadline)
      (hcollects : Collects s.now deadline s.horizon (answered s line items).terminal.queue result
        time left) :
      Exchange limit line s result (seeing (answered s line items) time left)

variable {s : Station}

theorem enqueue_kept_sorted (ht : s.terminal.Timeline) (items : List Timed) :
    Sorted (Terminal.enqueue s.now items (s.terminal.kept s.now)) :=
  Terminal.enqueue_sorted s.now items (ht.sublist (List.dropWhile_suffix _).sublist)

/-- What is left of a timeline behind the end of what is stale is the end of the output, or still to
come. -/
theorem kept_of_timeline (ht : s.terminal.Timeline) (hopen : s.terminal.closed = false) :
    (∃ time rest, s.terminal.kept s.now = ⟨time, .eof⟩ :: rest) ∨
      ∀ d ∈ s.terminal.kept s.now, s.now < d.time := by
  have hsorted : Sorted (s.terminal.kept s.now) := ht.sublist (List.dropWhile_suffix _).sublist
  have hhead : ∀ d ∈ (s.terminal.kept s.now).head?, s.terminal.isStale s.now d = false :=
    fun _ => Terminal.head?_kept
  cases hkept : s.terminal.kept s.now with
  | nil => exact .inr nofun
  | cons d rest =>
    rw [hkept] at hsorted hhead
    have hd := hhead d rfl
    simp only [Terminal.isStale, hopen, Bool.not_false, Bool.true_and, Bool.and_eq_false_iff,
      decide_eq_false_iff_not, not_not, Nat.not_le] at hd
    rcases hd with hlater | heof
    · exact .inr (List.forall_mem_cons.2 ⟨hlater, fun x hx =>
        Nat.lt_of_lt_of_le hlater ((List.pairwise_cons.1 hsorted).1 x hx)⟩)
    · exact .inl ⟨d.time, rest, by rw [← heof]⟩

/-- In front of the reply, a capture has only lines that were still to come when the line was
sent. -/
theorem Collects.fresh {line : String} {items : List Timed} {deadline time : Nat} {left : List Due}
    {c : Capture} (ht : s.terminal.Timeline) (hopen : s.terminal.closed = false)
    (h : Collects s.now deadline s.horizon (answered s line items).terminal.queue
      (.ok c) time left) :
    ∃ later own, c.lines = linesOf later ++ linesOf own ∧ later <+: s.terminal.kept s.now ∧
      (∀ d ∈ later, s.now < d.time) ∧ own.map (·.output) <+: items.map (·.output) := by
  obtain ⟨front, hfront, hlines, hline⟩ := h.front
  have hown : ∀ {own : List Due},
      own <+: schedule s.now (Terminal.lastDue (s.terminal.kept s.now)) items →
      own.map (·.output) <+: items.map (·.output) := fun hown => by
    rw [← schedule_output s.now (Terminal.lastDue (s.terminal.kept s.now))]
    exact hown.map _
  rcases kept_of_timeline ht hopen with ⟨time, rest, heof⟩ | hlater
  · -- the end of the output comes first, so there is nothing in front
    have hnil : front = [] := by
      cases front with
      | nil => rfl
      | cons d front =>
        obtain ⟨text, htext⟩ := hline d List.mem_cons_self
        rw [answered, Terminal.enqueue, heof, List.cons_append] at hfront
        obtain ⟨rfl, -⟩ := List.cons_prefix_cons.1 hfront
        cases htext
    subst hnil
    exact ⟨[], [], hlines, List.nil_prefix, nofun, List.nil_prefix⟩
  · obtain ⟨rest, hrest⟩ := hfront
    rcases List.append_eq_append_iff.1 hrest with ⟨more, hkept, -⟩ | ⟨own, rfl, hreply⟩
    · have hsub : front <+: s.terminal.kept s.now := ⟨more, hkept.symm⟩
      exact ⟨front, [], by rw [hlines]; exact (List.append_nil _).symm, hsub,
        fun d hd => hlater d (hsub.mem hd), List.nil_prefix⟩
    · exact ⟨_, own, by rw [hlines, linesOf_append], List.prefix_refl _, hlater,
        hown ⟨rest, hreply.symm⟩⟩

/-- Every command goes one of the ways of an exchange. -/
theorem exchange_command (ht : s.terminal.Timeline) (hnow : s.now ≤ s.horizon) (limit : TimeSpan)
    (line : String) :
    Exchange limit line s ((command limit line).run.run s).1
      ((command limit line).run.run s).2 := by
  cases hclosed : s.terminal.closed with
  | true =>
    rw [run_command_closed limit line hclosed]
    exact .closed hclosed
  | false =>
    cases hfault : (s.terminal.stale s.now).findSome? (·.output.fault?) with
    | some cause =>
      obtain ⟨front, d, more, hstale, hd, hfront⟩ := List.findSome?_eq_some_iff.1 hfault
      obtain ⟨time, _ | _ | cause⟩ := d
      · cases hd
      · cases hd
      · rw [run_command_fault hnow hstale hfront]
        exact .fault hstale hfront
    | none =>
      have hstale : Droppable s := List.findSome?_eq_none_iff.1 hfault
      rw [run_command_of_stale hnow hstale]
      cases hrespond : s.terminal.behaviour.respond s.terminal.attempts line with
      | refused cause =>
        rw [Terminal.send_of_refused (t := { s.terminal with queue := s.terminal.kept s.now }) s.now
          hclosed hrespond]
        exact .refused hclosed hstale hrespond
      | accepted items =>
        rw [Terminal.send_of_accepted (t := { s.terminal with queue := s.terminal.kept s.now })
          s.now hclosed hrespond]
        dsimp only
        cases hdeadline : deadlineAfter s.now limit with
        | error halt => exact .overflow hclosed hstale hrespond hdeadline
        | ok deadline =>
          have hle : s.now ≤ min deadline s.horizon :=
            Nat.le_min.2 ⟨le_deadlineAfter hdeadline, hnow⟩
          obtain ⟨time, left, hcollects, hstation⟩ := collects_gather (s := answered s line items)
            (enqueue_kept_sorted ht items) hle
          have hexchange := Exchange.captured hclosed hstale hrespond hdeadline hcollects
          rw [← hstation] at hexchange
          exact hexchange

/-- **A command and what is in front of it.** From every timeline, a command goes one of the ways of
an exchange: a read error among what is stale is its result, and nothing is sent. Otherwise exactly
what is stale is dropped, the line is sent once, and the capture ends with the first prompt, the end
of the output, a read error or the deadline. What was due when the command was given is never in its
capture. -/
theorem command_exchange (ht : s.terminal.Timeline) (hnow : s.now ≤ s.horizon) (limit : TimeSpan)
    (line : String) :
    Exchange limit line s ((command limit line).run.run s).1 ((command limit line).run.run s).2 ∧
      ∀ c, ((command limit line).run.run s).1 = .ok c →
        ∃ items later own, s.terminal.behaviour.respond s.terminal.attempts line = .accepted items ∧
          c.lines = linesOf later ++ linesOf own ∧ later <+: s.terminal.kept s.now ∧
          (∀ d ∈ later, s.now < d.time) ∧ own.map (·.output) <+: items.map (·.output) := by
  have h := exchange_command ht hnow limit line
  refine ⟨h, fun c hc => ?_⟩
  rw [hc] at h
  generalize ((command limit line).run.run s).2 = s' at h
  cases h with
  | captured hopen hstale hrespond hdeadline hcollects =>
    obtain ⟨later, own, hfresh⟩ := hcollects.fresh ht hopen
    exact ⟨_, later, own, hrespond, hfresh⟩

/-- A device that has put out a line and a prompt by now, and puts out another line later. -/
def rebooted : Station where
  now := 10
  horizon := 1000
  terminal :=
    { behaviour := .scripted [] [⟨"pepper", none,
        .accepted [⟨5, .line "[pepper]: uid DW0001 "⟩, ⟨5, .line ">"⟩]⟩] none
      queue := [⟨0, .line "boot"⟩, ⟨0, .line ">"⟩, ⟨30, .line "late"⟩]
      trials := []
      closed := false
      closes := 0 }

theorem command_exchange_rebooted :
    rebooted.terminal.Timeline ∧ rebooted.now ≤ rebooted.horizon ∧
      ((command (.ofMillis 200) uidLine).run.run rebooted).1 =
      .ok ⟨["late", "[pepper]: uid DW0001 "], .prompt⟩ ∧
      Exchange (.ofMillis 200) uidLine rebooted (.ok ⟨["late", "[pepper]: uid DW0001 "], .prompt⟩)
        ((command (.ofMillis 200) uidLine).run.run rebooted).2 := by
  have ht : rebooted.terminal.Timeline := by simp [Terminal.Timeline, rebooted]
  have hnow : rebooted.now ≤ rebooted.horizon := by decide
  have hcapture : ((command (.ofMillis 200) uidLine).run.run rebooted).1 =
      .ok ⟨["late", "[pepper]: uid DW0001 "], .prompt⟩ := by decide +kernel
  have h := (command_exchange ht hnow (.ofMillis 200) uidLine).1
  rw [hcapture] at h
  exact ⟨ht, hnow, hcapture, h⟩

end ProximityLab.Talk
