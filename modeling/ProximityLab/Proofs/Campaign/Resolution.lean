import ProximityLab.Proofs.Campaign.Run
import ProximityLab.Proofs.Campaign.Timeline
import ProximityLab.Terminal.Scripted

/-!
# How a campaign ends for a node

What a vigil makes of a terminal, said of the timeline of its output, the deadline and the stop:

- `Vigil.watch_of_ending`: the first ending comes in time and before the stop.
- `Vigil.watch_of_deadline`: the deadline comes first.
- `Vigil.watch_of_stop`, `Vigil.watchStopped_of_ending`, `Vigil.watchStopped_of_deadline`: the stop
  comes first, and the timeline goes on with the reply to the stop line.

`Campaign.resolution` puts them together for a node of a campaign: the outcome, the moment at which
it is reached, the lines that were sent, and the records that the node gains.
-/

namespace ProximityLab

namespace Vigil

variable {v : Vigil} {t : Terminal} {m : Nat}

theorem backward_admits (v : Vigil) (deadline : Option Nat) : Backward (v.admits deadline) := by
  intro a b hab hb
  cases deadline <;> simp only [admits, Option.all_none, Option.all_some, Bool.and_eq_true,
    decide_eq_true_eq, Bool.true_and] at hb ⊢ <;> omega

theorem backward_beforeStop (v : Vigil) : Backward v.beforeStop := by
  intro a b hab hb
  cases hs : v.stop with
  | none => simp [beforeStop, hs]
  | some m =>
    simp only [beforeStop, hs, Option.all_some, decide_eq_true_eq] at hb ⊢
    omega

/-- What comes at this moment is read before the stop. -/
def reads (v : Vigil) (time : Nat) : Bool := v.admits v.deadline time && v.beforeStop time

theorem backward_reads (v : Vigil) : Backward v.reads := by
  intro a b hab hb
  obtain ⟨ha, hs⟩ := Bool.and_eq_true_iff.1 hb
  exact Bool.and_eq_true_iff.2 ⟨v.backward_admits _ a b hab ha, v.backward_beforeStop a b hab hs⟩

theorem gather_of_open {p : Nat → Bool} (now : Nat) (hopen : t.closed = false) :
    t.gather p now = ProximityLab.gather p now t.queue := by
  simp [Terminal.gather, hopen]

/-- The vigil on an open terminal, with the output that is read before the stop. -/
theorem watch_of_open (hopen : t.closed = false) :
    v.watch t =
      let g := ProximityLab.gather v.reads v.start t.queue
      match g.ending with
      | some (e, time) => (.finished g.lines (e.outcome false) time, { t with queue := g.rest })
      | none =>
        match v.stopsAt with
        | some s =>
          match Terminal.send s stopLine { t with queue := g.rest } with
          | (.error cause, t) => (.finished g.lines (.failed cause.message) s, t)
          | (.ok (), t) => v.watchStopped s g.lines t
        | none => (v.lapse v.deadline g.lines, { t with queue := g.rest }) := by
  rw [← gather_of_open v.start hopen]
  rfl

/-- An ending that comes in time and before the stop decides the outcome. -/
theorem watch_of_ending (hopen : t.closed = false) (ht : t.Timeline) {e : Ending} {time : Nat}
    (he : firstEnding? (readFrom v.start t.queue) = some (e, time)) (hp : v.reads time = true) :
    ∃ rest, v.watch t =
      (.finished (linesOf (body (· ≤ time) (readFrom v.start t.queue))) (e.outcome false) time,
        { t with queue := rest }) := by
  have hend := gather_ending v.backward_reads v.start ht
  have hlines := gather_lines (p := v.reads) v.start ht
  simp only [he, Option.filter, hp, if_true] at hend
  rw [body_of_ending v.backward_reads (sorted_readFrom v.start ht) he hp] at hlines
  rw [watch_of_open hopen]
  dsimp only
  rw [hend, hlines]
  exact ⟨_, rfl⟩

/-- An ending that is not read in time is not found. -/
theorem gather_of_late {p : Nat → Bool} (hback : Backward p) {now : Nat} {queue : List Due}
    (hq : Sorted queue)
    (hlate : ∀ e time, firstEnding? (readFrom now queue) = some (e, time) → p time = false) :
    (ProximityLab.gather p now queue).ending = none := by
  rw [gather_ending hback now hq, Option.filter_eq_none_iff]
  rintro ⟨e, time⟩ he
  simp [hlate e time he]

/-- A deadline that comes before any ending and before the stop is the end. -/
theorem watch_of_deadline (hopen : t.closed = false) (ht : t.Timeline) {d : Nat}
    (hd : v.deadline = some d) (hcut : d ≤ v.cut)
    (hlate : ∀ e time, firstEnding? (readFrom v.start t.queue) = some (e, time) → d < time)
    (hstop : ∀ m ∈ v.stop, d < m) :
    ∃ rest, v.watch t =
      (.finished (linesOf (body (· ≤ d) (readFrom v.start t.queue))) .timedOut d,
        { t with queue := rest }) := by
  have hp : v.reads = fun time => decide (time ≤ d) := by
    funext time
    rw [Bool.eq_iff_iff]
    cases hs : v.stop with
    | none =>
      simp only [reads, admits, beforeStop, hd, hs, Option.all_some, Option.all_none,
        Bool.and_eq_true, decide_eq_true_eq, and_true]
      omega
    | some m =>
      have hm := hstop m hs
      simp only [reads, admits, beforeStop, hd, hs, Option.all_some, Bool.and_eq_true,
        decide_eq_true_eq]
      omega
  have hend : (ProximityLab.gather v.reads v.start t.queue).ending = none :=
    gather_of_late v.backward_reads ht fun e time he => by simpa [hp] using hlate e time he
  have hlines := gather_lines (p := v.reads) v.start ht
  have hnot : v.stopsAt = none := by
    rw [stopsAt, Option.filter_eq_none_iff]
    intro m hm
    have hdm := hstop m hm
    simp only [admits, hd, Option.all_some, Bool.and_eq_true, decide_eq_true_eq]
    omega
  rw [watch_of_open hopen]
  dsimp only
  rw [hend, hlines, hnot, hp]
  simp [lapse, hd, hcut]

/-! ## The stop -/

/-- A stop that comes before any ending and before the deadline: the stop line is sent when the
output up to there was read, and the rest of the timeline is still to come. -/
theorem watch_of_stop (hopen : t.closed = false) (ht : t.Timeline) (hm : v.stop = some m)
    (hstart : v.start ≤ m) (hcut : m ≤ v.cut)
    (hlate : ∀ e time, firstEnding? (readFrom v.start t.queue) = some (e, time) → m < time)
    (hd : ∀ d ∈ v.deadline, m < d) :
    ∃ rest, rest <:+ t.queue ∧
      readFrom v.start t.queue =
        body (· < m) (readFrom v.start t.queue) ++ readFrom m rest ∧
      v.watch t =
        match Terminal.send m stopLine { t with queue := rest } with
        | (.error cause, t') =>
          (.finished (linesOf (body (· < m) (readFrom v.start t.queue))) (.failed cause.message) m,
            t')
        | (.ok (), t') =>
          v.watchStopped m (linesOf (body (· < m) (readFrom v.start t.queue))) t' := by
  have hp : v.reads = fun time => decide (time < m) := by
    funext time
    rw [Bool.eq_iff_iff]
    cases hdl : v.deadline with
    | none =>
      simp only [reads, admits, beforeStop, hdl, hm, Option.all_some, Option.all_none,
        Bool.and_eq_true, decide_eq_true_eq, Bool.true_and]
      omega
    | some d =>
      have hmd := hd d hdl
      simp only [reads, admits, beforeStop, hdl, hm, Option.all_some, Bool.and_eq_true,
        decide_eq_true_eq]
      omega
  have hend : (ProximityLab.gather v.reads v.start t.queue).ending = none :=
    gather_of_late v.backward_reads ht fun e time he => by
      have hmt := hlate e time he
      simp only [hp, decide_eq_false_iff_not]
      omega
  have hlines := gather_lines (p := v.reads) v.start ht
  obtain ⟨heq, hsuf, hhead⟩ := gather_rest v.start ht hend
  have hlater := readFrom_of_head hstart (ht.sublist hsuf.sublist) fun d hd => by
    have hnot := hhead d hd
    simp only [hp, decide_eq_false_iff_not] at hnot
    omega
  have hstop : v.stopsAt = some m := by
    rw [stopsAt, hm, Option.filter_some_pos]
    cases hdl : v.deadline with
    | none => simpa [admits] using hcut
    | some d =>
      have hmd := hd d hdl
      simp only [admits, Option.all_some, Bool.and_eq_true, decide_eq_true_eq]
      omega
  refine ⟨(ProximityLab.gather v.reads v.start t.queue).rest, hsuf, ?_, ?_⟩
  · rw [hlater, ← hp]
    exact heq
  · rw [watch_of_open hopen]
    dsimp only
    rw [hend, hstop, hlines, hp]

/-- After the stop, an ending that comes in time decides the outcome. -/
theorem watchStopped_of_ending (hopen : t.closed = false) (ht : t.Timeline) (lines : List String)
    {moment : Nat} (hg : deadlineAfter m v.grace = .ok moment) {e : Ending} {time : Nat}
    (he : firstEnding? (readFrom m t.queue) = some (e, time))
    (hd : time ≤ earlier v.deadline moment) (hcut : time ≤ v.cut) :
    ∃ rest, v.watchStopped m lines t =
      (.finished (lines ++ linesOf (body (· ≤ time) (readFrom m t.queue))) (e.outcome true) time,
        { t with queue := rest }) := by
  have hp : v.admits (some (earlier v.deadline moment)) time = true := by
    simp [admits, hd, hcut]
  have hback := v.backward_admits (some (earlier v.deadline moment))
  have hend := gather_ending hback m ht
  have hlines := gather_lines (p := v.admits (some (earlier v.deadline moment))) m ht
  simp only [he, Option.filter, hp, if_true] at hend
  rw [body_of_ending hback (sorted_readFrom m ht) he hp] at hlines
  unfold watchStopped
  rw [hg]
  dsimp only
  rw [gather_of_open m hopen, hend, hlines]
  exact ⟨_, rfl⟩

/-- After the stop, the deadline is the end if nothing else comes before. -/
theorem watchStopped_of_deadline (hopen : t.closed = false) (ht : t.Timeline) (lines : List String)
    {moment : Nat} (hg : deadlineAfter m v.grace = .ok moment)
    (hlate : ∀ e time, firstEnding? (readFrom m t.queue) = some (e, time) →
      earlier v.deadline moment < time)
    (hcut : earlier v.deadline moment ≤ v.cut) :
    ∃ rest, v.watchStopped m lines t =
      (.finished
        (lines ++ linesOf (body (· ≤ earlier v.deadline moment) (readFrom m t.queue)))
        .timedOut (earlier v.deadline moment), { t with queue := rest }) := by
  have hp : v.admits (some (earlier v.deadline moment)) =
      fun time => decide (time ≤ earlier v.deadline moment) := by
    funext time
    rw [Bool.eq_iff_iff]
    simp only [admits, Option.all_some, Bool.and_eq_true, decide_eq_true_eq]
    omega
  have hend := gather_of_late (v.backward_admits (some (earlier v.deadline moment))) ht
    fun e time he => by simpa [hp] using hlate e time he
  have hlines := gather_lines (p := v.admits (some (earlier v.deadline moment))) m ht
  unfold watchStopped
  rw [hg]
  dsimp only
  rw [gather_of_open m hopen, hend, hlines, hp]
  simp [lapse, hcut]

end Vigil

/-! ## The timeline after the stop -/

/-- The reply to a line that is sent at the moment `m`, behind the output of a terminal. -/
def Terminal.replyTo (t : Terminal) (m : Nat) (items : List Timed) : List Due :=
  schedule m (Terminal.lastDue t.queue) items

/-- The output that is left at the stop and the reply to the stop line are the rest of the
timeline. -/
theorem readFrom_enqueue {t : Terminal} {now m : Nat} {rest : List Due} (items : List Timed)
    (hsuf : rest <:+ t.queue)
    (heq : readFrom now t.queue = body (· < m) (readFrom now t.queue) ++ readFrom m rest) :
    readFrom now t.queue ++ t.replyTo m items =
      body (· < m) (readFrom now t.queue) ++ readFrom m (Terminal.enqueue m items rest) := by
  have hreply : t.replyTo m items = schedule m (Terminal.lastDue rest) items := by
    by_cases hne : rest = []
    · -- all output was due by then, so there is nothing that the reply has to wait for
      subst hne
      have hdue : ∀ d ∈ t.queue, d.time ≤ m := fun d hd => by
        have hmem : (⟨max now d.time, d.output⟩ : Due) ∈ readFrom now t.queue :=
          List.mem_map_of_mem hd
        rw [heq, readFrom_nil, List.append_nil] at hmem
        have := (ending?_of_mem_body hmem).2
        simp only [decide_eq_true_eq] at this
        omega
      have hlast : Terminal.lastDue t.queue ≤ m := by
        unfold Terminal.lastDue
        cases hl : t.queue.getLast? with
        | none => simp
        | some d => exact hdue d (List.mem_of_getLast? hl)
      rw [Terminal.replyTo, schedule_of_le hlast]
      exact (schedule_of_le (Nat.zero_le m) items).symm
    · rw [Terminal.replyTo, lastDue_of_suffix hsuf hne]
  rw [Terminal.enqueue, readFrom_append, readFrom_of_le fun d hd => le_of_mem_schedule hd,
    ← List.append_assoc, ← heq, hreply]

/-! ## Nodes -/

/-- The first ending of a timeline comes in time, before the stop. -/
def EndsFirst (timeline : List Due) (deadline stop : Option Nat) (e : Ending) (time : Nat) : Prop :=
  firstEnding? timeline = some (e, time) ∧ (∀ d ∈ deadline, time ≤ d) ∧ ∀ m ∈ stop, time < m

/-- The stop comes before the first ending of a timeline and before the deadline. -/
def StopsFirst (timeline : List Due) (deadline stop : Option Nat) (m : Nat) : Prop :=
  stop = some m ∧ (∀ e time, firstEnding? timeline = some (e, time) → m < time) ∧
    ∀ d ∈ deadline, m < d

namespace Campaign

/-- A node `n` whose terminal is `t` once the start line was sent leaves the campaign with an
outcome at a moment, when after the start line `stops` was tried. Behind the records that it had
come those that are found in the lines in front of the first ending that were due by that moment,
and nothing else changes. -/
structure Leaves (c : Campaign) (v : Vigil) (n : Node) (t : Terminal) (timeline : List Due)
    (outcome : Outcome) (time : Nat) (stops : List Trial) (n' : Node) : Prop where
  record :
    let found := classifyLines (linesOf (body (· ≤ time) timeline))
    n'.record = { n.record with
      summaries := n.record.summaries ++ found.summaries
      telemetry := n.record.telemetry ++ found.telemetry
      outcome := some outcome }
  phase : n'.phase = outcome.phase
  trials : n'.terminal.trials = n.terminal.trials ++ ⟨v.start, startLine c.params, true⟩ :: stops
  moment : (v.watch t).1 = .finished (linesOf (body (· ≤ time) timeline)) outcome time

variable {c : Campaign} {now cut : Nat} {stop : Option Nat} {n : Node} {t : Terminal}

theorem startNode_of_send (hsent : n.terminal.send now (startLine c.params) = (.ok (), t)) :
    c.startNode now n = { n with terminal := t, phase := .awaiting } := by
  simp [startNode, hsent]

section Leaving

variable {deadline : Option Nat} (hdeadline : c.deadline now = .ok deadline)
  (hline : n.terminal.Timeline) (hsent : n.terminal.send now (startLine c.params) = (.ok (), t))

include hdeadline hsent

/-- A node that has taken its start line is waited for up to the deadline that it got with it. -/
theorem resolve_of_send : c.resolve now cut stop n =
    settle { n with terminal := t, phase := .awaiting }
      ((c.vigil now cut stop deadline).watch t) := by
  have hstart := startNode_of_send hsent
  rw [resolve, deadline_started (by rw [hstart]) hdeadline, hstart, Vigil.resolve, if_pos rfl]

/-- A node leaves a campaign with what its vigil gives. -/
theorem leaves_of_watch {timeline : List Due} {outcome : Outcome} {time : Nat} {stops : List Trial}
    {t' : Terminal}
    (hw : (c.vigil now cut stop deadline).watch t =
      (.finished (linesOf (body (· ≤ time) timeline)) outcome time, t'))
    (hstops : t'.trials = t.trials ++ stops) :
    c.Leaves (c.vigil now cut stop deadline) n t timeline outcome time stops
      (c.resolve now cut stop n) := by
  obtain ⟨-, -, htrials⟩ := Terminal.send_eq_ok hsent
  rw [resolve_of_send hdeadline hsent, hw]
  refine ⟨rfl, rfl, ?_, by rw [hw]⟩
  rw [settle_terminal, hstops, htrials, List.append_assoc]
  rfl

omit hdeadline in
include hline in
theorem timeline_of_send : t.Timeline := by
  have h := Terminal.timeline_send now (startLine c.params) hline
  rwa [hsent] at h

include hline

theorem leaves_of_endsFirst {e : Ending} {time : Nat}
    (h : EndsFirst (readFrom now t.queue) deadline stop e time) (hcut : time ≤ cut) :
    c.Leaves (c.vigil now cut stop deadline) n t (readFrom now t.queue) (e.outcome false) time []
      (c.resolve now cut stop n) := by
  obtain ⟨he, hd, hs⟩ := h
  have hreads : (c.vigil now cut stop deadline).reads time = true := by
    rw [Vigil.reads, Vigil.admits, Vigil.beforeStop, Bool.and_eq_true, Bool.and_eq_true]
    refine ⟨⟨?_, decide_eq_true hcut⟩, ?_⟩
    · show deadline.all _ = true
      cases deadline with
      | none => rfl
      | some d => simpa using hd d rfl
    · show stop.all _ = true
      cases stop with
      | none => rfl
      | some m => simpa using hs m rfl
  obtain ⟨rest, hw⟩ :=
    Vigil.watch_of_ending (v := c.vigil now cut stop deadline) (Terminal.send_eq_ok hsent).2.1
      (timeline_of_send hline hsent) he hreads
  exact leaves_of_watch hdeadline hsent hw (List.append_nil _).symm

theorem leaves_of_deadline {d : Nat} (hd : deadline = some d)
    (hlate : ∀ e time, firstEnding? (readFrom now t.queue) = some (e, time) → d < time)
    (hstop : ∀ m ∈ stop, d < m) (hcut : d ≤ cut) :
    c.Leaves (c.vigil now cut stop deadline) n t (readFrom now t.queue) .timedOut d []
      (c.resolve now cut stop n) := by
  obtain ⟨rest, hw⟩ := Vigil.watch_of_deadline (v := c.vigil now cut stop deadline)
    (Terminal.send_eq_ok hsent).2.1 (timeline_of_send hline hsent)
    hd hcut hlate hstop
  exact leaves_of_watch hdeadline hsent hw (List.append_nil _).symm

omit hdeadline in
/-- When the stop comes first, the stop line is sent. If the terminal takes it, the vigil goes on
with the rest of the timeline and the reply. -/
theorem watch_of_stopsFirst {m : Nat} (hstart : now ≤ m) (hcut : m ≤ cut)
    (h : StopsFirst (readFrom now t.queue) deadline stop m)
    (htie : ∀ d ∈ readFrom now t.queue, d.time ≠ m) :
    match t.behaviour.respond t.attempts stopLine with
    | .refused cause => ∃ t', t'.trials = t.trials ++ [⟨m, stopLine, false⟩] ∧
      (c.vigil now cut stop deadline).watch t =
        (.finished (linesOf (body (· ≤ m) (readFrom now t.queue))) (.failed cause.message) m, t')
    | .accepted items => ∃ t', t'.closed = false ∧ t'.Timeline ∧
      t'.trials = t.trials ++ [⟨m, stopLine, true⟩] ∧
      readFrom now t.queue ++ t.replyTo m items =
        body (· < m) (readFrom now t.queue) ++ readFrom m t'.queue ∧
      (c.vigil now cut stop deadline).watch t =
        (c.vigil now cut stop deadline).watchStopped m
        (linesOf (body (· < m) (readFrom now t.queue))) t' := by
  obtain ⟨hstop, hlate, hd⟩ := h
  have hopen := (Terminal.send_eq_ok hsent).2.1
  have ht := timeline_of_send hline hsent
  obtain ⟨rest, hsuf, heq, hw⟩ :=
    Vigil.watch_of_stop (v := c.vigil now cut stop deadline) hopen ht hstop
      hstart hcut hlate hd
  change readFrom now t.queue = body (· < m) (readFrom now t.queue) ++ readFrom m rest at heq
  change _ = match Terminal.send m stopLine { t with queue := rest } with
    | (.error cause, t') =>
      (VigilEnd.finished (linesOf (body (· < m) (readFrom now t.queue))) (.failed cause.message) m,
        t')
    | (.ok (), t') => (c.vigil now cut stop deadline).watchStopped m
        (linesOf (body (· < m) (readFrom now t.queue))) t' at hw
  cases hr : t.behaviour.respond t.attempts stopLine with
  | refused cause =>
    have hbefore : body (· < m) (readFrom now t.queue) = body (· ≤ m) (readFrom now t.queue) :=
      body_congr fun d hd => by
        have := htie d hd
        simp only [decide_eq_decide]
        omega
    rw [Terminal.send_of_refused (t := { t with queue := rest }) m hopen hr, hbefore] at hw
    exact ⟨{ t with queue := rest }.tried m stopLine false, rfl, hw⟩
  | accepted items =>
    rw [Terminal.send_of_accepted (t := { t with queue := rest }) m hopen hr] at hw
    exact ⟨{ t.tried m stopLine true with queue := Terminal.enqueue m items rest }, hopen,
      Terminal.enqueue_sorted m items (ht.sublist hsuf.sublist), rfl,
      readFrom_enqueue items hsuf heq, hw⟩

theorem leaves_of_refused {m : Nat} (hstart : now ≤ m) (hcut : m ≤ cut)
    (h : StopsFirst (readFrom now t.queue) deadline stop m)
    (htie : ∀ d ∈ readFrom now t.queue, d.time ≠ m) {cause : ChannelError}
    (hr : t.behaviour.respond t.attempts stopLine = .refused cause) :
    c.Leaves (c.vigil now cut stop deadline) n t (readFrom now t.queue) (.failed cause.message) m
      [⟨m, stopLine, false⟩] (c.resolve now cut stop n) := by
  have hw := watch_of_stopsFirst hline hsent hstart hcut h htie
  rw [hr] at hw
  obtain ⟨t', htrials, hw⟩ := hw
  exact leaves_of_watch hdeadline hsent hw htrials

/-- The grace period after the stop is within the range of instants, unless the campaign is not. -/
theorem grace_of_accepted {m : Nat} (hstart : now ≤ m) (hcut : m ≤ cut)
    (h : StopsFirst (readFrom now t.queue) deadline stop m)
    (htie : ∀ d ∈ readFrom now t.queue, d.time ≠ m) {items : List Timed}
    (hr : t.behaviour.respond t.attempts stopLine = .accepted items)
    (hrange : ¬ c.OverflowsAt now cut stop n) : ∃ moment, deadlineAfter m c.grace = .ok moment := by
  have hw := watch_of_stopsFirst hline hsent hstart hcut h htie
  rw [hr] at hw
  obtain ⟨t', -, -, -, -, hw⟩ := hw
  cases hg : deadlineAfter m c.grace with
  | ok moment => exact ⟨moment, rfl⟩
  | error e =>
    have hover : (c.vigil now cut stop deadline).watchStopped m
        (linesOf (body (· < m) (readFrom now t.queue))) t' = (.overflow m, t') := by
      rw [Vigil.watchStopped, show (c.vigil now cut stop deadline).grace = c.grace from rfl, hg]
    have hphase : (c.startNode now n).phase = .awaiting := by rw [startNode_of_send hsent]
    refine absurd ⟨hphase, .inr ⟨hphase, m, ?_⟩⟩ hrange
    rw [deadline_started hphase hdeadline, startNode_of_send hsent, hw, hover]

theorem leaves_of_accepted {m : Nat} (hstart : now ≤ m) (hcut : m ≤ cut)
    (h : StopsFirst (readFrom now t.queue) deadline stop m)
    (htie : ∀ d ∈ readFrom now t.queue, d.time ≠ m) {items : List Timed}
    (hr : t.behaviour.respond t.attempts stopLine = .accepted items) {moment : Nat}
    (hg : deadlineAfter m c.grace = .ok moment) :
    (∀ e time, firstEnding? (readFrom now t.queue ++ t.replyTo m items) = some (e, time) →
      time ≤ earlier deadline moment → time ≤ cut →
      c.Leaves (c.vigil now cut stop deadline) n t (readFrom now t.queue ++ t.replyTo m items)
        (e.outcome true) time [⟨m, stopLine, true⟩] (c.resolve now cut stop n)) ∧
    ((∀ e time, firstEnding? (readFrom now t.queue ++ t.replyTo m items) = some (e, time) →
      earlier deadline moment < time) → earlier deadline moment ≤ cut →
      c.Leaves (c.vigil now cut stop deadline) n t (readFrom now t.queue ++ t.replyTo m items)
        .timedOut (earlier deadline moment) [⟨m, stopLine, true⟩] (c.resolve now cut stop n)) := by
  have hw := watch_of_stopsFirst hline hsent hstart hcut h htie
  rw [hr] at hw
  obtain ⟨t', hopen', ht', htrials, htimeline, hw⟩ := hw
  have hfront : ∀ d ∈ body (· < m) (readFrom now t.queue),
      d.output.ending? = none ∧ d.time < m := fun d hd => by
    simpa using ending?_of_mem_body hd
  -- the lines that were read before the stop and after it are those of the whole timeline
  have hlines : ∀ time, m ≤ time →
      linesOf (body (· < m) (readFrom now t.queue)) ++
        linesOf (body (· ≤ time) (readFrom m t'.queue)) =
      linesOf (body (· ≤ time) (readFrom now t.queue ++ t.replyTo m items)) := fun time hle => by
    rw [htimeline, body_append _ fun d hd => ⟨(hfront d hd).1, ?_⟩, linesOf_append]
    have := (hfront d hd).2
    simp only [decide_eq_true_eq]
    omega
  rw [htimeline, firstEnding?_append _ fun d hd => (hfront d hd).1, ← htimeline]
  refine ⟨fun e time he hle htime => ?_, fun hlate hfinal => ?_⟩
  · obtain ⟨d, hd, rfl, -⟩ := mem_of_firstEnding? he
    obtain ⟨rest, hw'⟩ :=
      Vigil.watchStopped_of_ending (v := c.vigil now cut stop deadline) hopen' ht'
        (linesOf (body (· < m) (readFrom now t.queue))) hg he hle htime
    rw [hlines _ (le_of_mem_readFrom hd)] at hw'
    exact leaves_of_watch hdeadline hsent (hw.trans hw') htrials
  · obtain ⟨rest, hw'⟩ :=
      Vigil.watchStopped_of_deadline (v := c.vigil now cut stop deadline) hopen' ht'
        (linesOf (body (· < m) (readFrom now t.queue))) hg hlate hfinal
    have hle : m ≤ earlier deadline moment := by
      have hgrace := le_deadlineAfter hg
      cases deadline with
      | none => exact hgrace
      | some d =>
        have hmd := h.2.2 d rfl
        simp only [earlier]
        omega
    rw [show (c.vigil now cut stop deadline).deadline = deadline from rfl, hlines _ hle] at hw'
    exact leaves_of_watch hdeadline hsent (hw.trans hw') htrials

end Leaving

/-- What is left when neither an ending nor the stop comes first is the deadline. -/
theorem deadline_first {timeline : List Due} {d : Nat}
    (htie : ∀ m ∈ stop, d ≠ m ∧ ∀ o ∈ timeline, o.time ≠ m)
    (hends : ∀ e time, ¬ EndsFirst timeline (some d) stop e time)
    (hstops : ∀ m, ¬ StopsFirst timeline (some d) stop m) :
    (∀ e time, firstEnding? timeline = some (e, time) → d < time) ∧ ∀ m ∈ stop, d < m := by
  have hlate : ∀ e time, firstEnding? timeline = some (e, time) → d < time := fun e time he => by
    by_contra hle
    refine hends e time ⟨he, by simp; omega, fun m hm => ?_⟩
    by_contra hlt
    obtain ⟨o, ho, rfl, -⟩ := mem_of_firstEnding? he
    have hne := (htie m hm).2 o ho
    refine hstops m ⟨hm, fun e' time' he' => ?_, by simp; omega⟩
    obtain ⟨-, rfl⟩ := Prod.mk.inj (Option.some.inj (he.symm.trans he'))
    omega
  refine ⟨hlate, fun m hm => ?_⟩
  by_contra hlt
  have hne := (htie m hm).1
  refine hstops m ⟨hm, fun e time he => ?_, by simp; omega⟩
  have := hlate e time he
  omega

/-- How a node that was sent the start line leaves its campaign. The campaign stays within the range
of instants if the grace period after the stop does; and when it does, an ending in time and before
the stop decides. If the stop comes first, one stop line is sent, the reply goes behind the rest of
the timeline and the deadline is at most the grace period away. Otherwise it is the deadline. -/
theorem resolution {origin i : Nat} {signal : StopSignal} {nodes : List Node}
    (hidle : ∀ n ∈ nodes, n.phase.inFlight = false) (hn : nodes[i]? = some n)
    (hline : n.terminal.Timeline) (hsent : n.terminal.send now (startLine c.params) = (.ok (), t))
    {deadline : Option Nat} (hdeadline : c.deadline now = .ok deadline)
    (htie : ∀ m ∈ signal.moment origin now,
      deadline ≠ some m ∧ ∀ d ∈ readFrom now t.queue, d.time ≠ m) :
    let stop := signal.moment origin now
    let timeline := readFrom now t.queue
    let leaves := c.Leaves (c.vigil now cut stop deadline) n t
    ((∀ m ∈ stop, ∃ moment, deadlineAfter m c.grace = .ok moment) →
      (c.run now cut stop nodes).ending ≠ .overflow) ∧
    ((c.run now cut stop nodes).ending ≠ .overflow →
      ∃ n', (c.run now cut stop nodes).nodes[i]? = some n' ∧
        (∀ e time, EndsFirst timeline deadline stop e time → time ≤ cut →
          leaves timeline (e.outcome false) time [] n') ∧
        (∀ m, StopsFirst timeline deadline stop m → m ≤ cut →
          match t.behaviour.respond t.attempts stopLine with
          | .refused cause => leaves timeline (.failed cause.message) m [⟨m, stopLine, false⟩] n'
          | .accepted items => ∃ moment, deadlineAfter m c.grace = .ok moment ∧
            let timeline' := timeline ++ t.replyTo m items
            (∀ e time, firstEnding? timeline' = some (e, time) →
              time ≤ earlier deadline moment → time ≤ cut →
              leaves timeline' (e.outcome true) time [⟨m, stopLine, true⟩] n') ∧
            ((∀ e time, firstEnding? timeline' = some (e, time) → earlier deadline moment < time) →
              earlier deadline moment ≤ cut →
              leaves timeline' .timedOut (earlier deadline moment) [⟨m, stopLine, true⟩] n')) ∧
        (∀ d, deadline = some d → (∀ e time, ¬ EndsFirst timeline deadline stop e time) →
          (∀ m, ¬ StopsFirst timeline deadline stop m) → d ≤ cut →
          leaves timeline .timedOut d [] n')) := by
  intro stop timeline leaves
  refine ⟨run_in_range cut hidle hdeadline, fun hrange => ?_⟩
  obtain ⟨hover, hnodes⟩ := c.run_spec now cut stop hidle
  have hno : ¬ c.OverflowsAt now cut stop n := fun ho =>
    hrange (hover.2 (.inr ⟨n, List.mem_of_getElem? hn, ho⟩))
  refine ⟨c.resolve now cut stop n, by simp [(hnodes hrange).2, hn], ?_, ?_, ?_⟩
  · exact fun e time => leaves_of_endsFirst hdeadline hline hsent
  · intro m h hcut
    have hstart := StopSignal.le_moment h.1
    have htie' := (htie m h.1).2
    split
    · rename_i cause hr
      exact leaves_of_refused hdeadline hline hsent hstart hcut h htie' hr
    · rename_i items hr
      obtain ⟨moment, hg⟩ := grace_of_accepted hdeadline hline hsent hstart hcut h htie' hr hno
      exact ⟨moment, hg, leaves_of_accepted hdeadline hline hsent hstart hcut h htie' hr hg⟩
  · rintro d rfl hends hstops hcut
    obtain ⟨hlate, hstop⟩ := deadline_first
      (fun m hm => ⟨fun h => (htie m hm).1 (congrArg some h), (htie m hm).2⟩) hends hstops
    exact leaves_of_deadline hdeadline hline hsent rfl hlate hstop hcut

/-- A device that runs until it is told to stop. It prints a record before and after that. -/
def untiring : Behaviour :=
  .scripted [] [⟨"pepper start", none, .accepted [⟨20, .line "\x7b\"epoch\":7,\"pets\":[]\x7d"⟩]⟩,
    ⟨"pepper stop", none, .accepted
      [⟨40, .line "\x7b\"bn\":\"pepper:ble:aa\",\"n\":\"x\",\"v\":1,\"u\":\"\"\x7d"⟩,
        ⟨60, .line prompt⟩]⟩] none

/-- A campaign of one epoch of a second. -/
def oneSecond : Campaign :=
  ⟨{ Params.default with iterations := 1, duration := 1 }, .ofMillis 50, .ofSeconds 1⟩

/-- A node of an earlier campaign, whose records stay in front. -/
def veteran : Node :=
  { Node.new (.opened 0 untiring) "a" none with
    record := { NodeRecord.new "a" none with
      summaries := [⟨none, 6, []⟩], outcome := some .timedOut }
    phase := .timedOut }

theorem resolution_untiring :
    ∃ n', (oneSecond.run 0 100000 (some 500) [veteran]).nodes[0]? = some n' ∧
      n'.record = ⟨"a", none, none, [⟨none, 6, []⟩, ⟨none, 7, []⟩],
        [⟨.ble, "aa", none, "pepper", 0, []⟩], some .stopped⟩ ∧
      n'.terminal.trials =
        [⟨0, startLine oneSecond.params, true⟩, ⟨500, stopLine, true⟩] := by
  obtain ⟨hrange, hleaves⟩ := @resolution oneSecond 0 100000 _
    ((Terminal.opened 0 untiring).send 0 (startLine oneSecond.params)).2 0 0 ⟨false, some 500⟩
    [veteran] (by decide) rfl (Terminal.timeline_opened 0 untiring)
    (Prod.ext (by decide +kernel) rfl)
    (some 1150) (by decide +kernel) (by decide +kernel)
  obtain ⟨n', hn', -, hstop, -⟩ := hleaves (hrange fun m hm => by
    cases hm
    exact ⟨1500, rfl⟩)
  have hnone : firstEnding? (readFrom 0
      ((Terminal.opened 0 untiring).send 0 (startLine oneSecond.params)).2.queue) = none := by
    decide +kernel
  obtain ⟨moment, hg, hend, -⟩ :=
    hstop 500 ⟨rfl, fun e time he => by simp [hnone] at he, by decide +kernel⟩ (by decide)
  obtain rfl : 1500 = moment := Except.ok.inj hg
  have h := hend .prompt 560 (by decide +kernel) (by decide) (by decide)
  refine ⟨n', hn', ?_, h.trials⟩
  rw [h.record]
  decide +kernel

end Campaign

end ProximityLab
