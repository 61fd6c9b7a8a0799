import ProximityLab.Proofs.Campaign.Commands
import ProximityLab.Proofs.Campaign.Resolution
import ProximityLab.Proofs.Session.Reply

/-!
# Campaigns on a terminal with a prompt to come

When there is a prompt in the queue of a terminal at the start of a campaign, nothing behind it is
read: the campaign is over with that prompt at the latest, whatever line the prompt belongs to
(`Vigil.watch_prompted`).
-/

namespace ProximityLab

namespace Vigil

variable {v : Vigil} {t t' : Terminal} {front rest : List Due} {last : Due} {lines : List String}
  {outcome : Outcome} {time : Nat}

/-- A vigil in which the output does not end has timed out, if it is not given up. -/
theorem lapse_eq_finished {deadline : Option Nat} {found : List String}
    (h : v.lapse deadline found = .finished lines outcome time) :
    lines = found ∧ outcome = .timedOut := by
  unfold lapse at h
  split at h
  · split at h
    · cases h
      exact ⟨rfl, rfl⟩
    · cases h
  · cases h

theorem watchStopped_prompted {s : Nat} {found : List String} (hopen : t.closed = false)
    (hq : t.queue = front ++ last :: rest) (hfront : ∀ d ∈ front, d.output.ending? = none)
    (hlast : last.output.ending? = some .prompt)
    (hw : v.watchStopped s found t = (.finished lines outcome time, t')) :
    (∃ more, lines = found ++ more ∧ more <+: linesOf front) ∧ outcome ≠ .completed := by
  unfold watchStopped at hw
  split at hw
  · cases hw
  · rename_i moment _
    dsimp only at hw
    rw [gather_of_open s hopen, hq] at hw
    rcases gather_prompted (v.admits (some (earlier v.deadline moment))) s rest hfront hlast with
      ⟨time', -, hg⟩ | ⟨read, left, rfl, hg⟩
    · rw [hg] at hw
      cases hw
      exact ⟨⟨_, rfl, List.prefix_refl _⟩, by simp [Ending.outcome]⟩
    · rw [hg] at hw
      obtain ⟨rfl, rfl⟩ := lapse_eq_finished (Prod.mk.inj hw).1
      exact ⟨⟨_, rfl, linesOf_append read left ▸ List.prefix_append _ _⟩, by simp⟩

/-- What is read ends before the first prompt. Only if the campaign completes is that prompt
read. -/
theorem watch_prompted (hopen : t.closed = false) (hq : t.queue = front ++ last :: rest)
    (hfront : ∀ d ∈ front, d.output.ending? = none) (hlast : last.output.ending? = some .prompt)
    (hw : v.watch t = (.finished lines outcome time, t')) :
    lines <+: linesOf front ∧ (outcome = .completed → lines = linesOf front ∧ t'.queue = rest) := by
  rw [watch_of_open hopen, hq] at hw
  rcases gather_prompted v.reads v.start rest hfront hlast with
    ⟨time', -, hg⟩ | ⟨read, left, rfl, hg⟩
  · rw [hg] at hw
    cases hw
    exact ⟨List.prefix_refl _, fun _ => ⟨rfl, rfl⟩⟩
  · rw [hg] at hw
    have hread : linesOf read <+: linesOf (read ++ left) :=
      linesOf_append read left ▸ List.prefix_append _ _
    dsimp only at hw
    split at hw
    · rename_i s _
      cases hr : t.behaviour.respond t.attempts stopLine with
      | refused cause =>
        rw [Terminal.send_of_refused (t := { t with queue := left ++ last :: rest }) s hopen hr]
          at hw
        cases hw
        exact ⟨hread, by simp⟩
      | accepted items =>
        rw [Terminal.send_of_accepted (t := { t with queue := left ++ last :: rest }) s hopen hr]
          at hw
        have hqueue : Terminal.enqueue s items (left ++ last :: rest) =
            left ++ last :: (rest ++
              schedule s (Terminal.lastDue (left ++ last :: rest)) items) := by
          simp [Terminal.enqueue]
        obtain ⟨⟨more, rfl, hmore⟩, hne⟩ := watchStopped_prompted (by exact hopen) (by exact hqueue)
          (fun d hd => hfront d (List.mem_append_right _ hd)) hlast hw
        refine ⟨?_, fun hc => absurd hc hne⟩
        rw [linesOf_append]
        exact (List.prefix_append_right_inj _).2 hmore
    · obtain ⟨rfl, rfl⟩ := lapse_eq_finished (Prod.mk.inj hw).1
      exact ⟨hread, by simp⟩

end Vigil

/-- A record that holds no results. -/
structure NodeRecord.Blank (r : NodeRecord) : Prop where
  summaries : r.summaries = []
  telemetry : r.telemetry = []
  outcome : r.outcome = none

theorem NodeRecord.blank_new (node : String) (position : Option Position) :
    (NodeRecord.new node position).Blank := ⟨rfl, rfl, rfl⟩

/-- What a node gains when these lines were read and the campaign is over. -/
structure Gains (lines : List String) (n : Node) : Prop where
  summaries : n.record.summaries = (classifyLines lines).summaries
  telemetry : n.record.telemetry = (classifyLines lines).telemetry

theorem gains_finish {n : Node} (h : n.record.Blank) (lines : List String) (outcome : Outcome) :
    Gains lines (n.finish lines outcome) := by
  constructor <;> simp [Node.finish, h.summaries, h.telemetry]

/-- What a node makes of a campaign when a prompt comes after some lines, the `front`. -/
theorem Campaign.resolve_prompted (c : Campaign) {now cut : Nat} {stop : Option Nat} {n : Node}
    {front rest : List Due} {last : Due} {items : List Timed} (hopen : n.terminal.closed = false)
    (hr : n.terminal.behaviour.respond n.terminal.attempts (startLine c.params) = .accepted items)
    (hq : Terminal.enqueue now items n.terminal.queue = front ++ last :: rest)
    (hfront : ∀ d ∈ front, d.output.ending? = none) (hlast : last.output.ending? = some .prompt)
    (hblank : n.record.Blank) :
    let n' := c.resolve now cut stop n
    (∃ stops, (stops = [] ∨ stops = [stopLine]) ∧
      n'.terminal.attempts = n.terminal.attempts ++ startLine c.params :: stops) ∧
    ∃ lines, Gains lines n' ∧ lines <+: linesOf front ∧
      (n'.record.outcome = some .completed → lines = linesOf front ∧ n'.terminal.queue = rest) := by
  have hsent := Terminal.send_of_accepted now hopen hr
  generalize ht : ({ n.terminal.tried now (startLine c.params) true with
    queue := Terminal.enqueue now items n.terminal.queue } : Terminal) = t at hsent
  generalize hv : c.vigil now cut stop (c.started now n).deadline = v
  have hresolve : c.resolve now cut stop n =
      settle { n with terminal := t, phase := .awaiting } (v.watch t) := by
    rw [resolve, hv, startNode_of_send hsent, Vigil.resolve, if_pos rfl]
  obtain ⟨-, hopen', hstart⟩ := Terminal.send_eq_ok hsent
  obtain ⟨trials, hwatch, htrials⟩ := v.says_watch t
  rw [hresolve]
  refine ⟨⟨trials.map (·.line), ?_, ?_⟩, ?_⟩
  · rcases htrials with rfl | ⟨m, taken, rfl, -⟩
    · exact .inl rfl
    · exact .inr rfl
  · rw [settle_terminal, Terminal.attempts_append hwatch, Terminal.attempts_append hstart,
      List.append_assoc]
    rfl
  · rcases hw : v.watch t with ⟨ending, t'⟩
    have hnothing : ∀ n' : Node, n'.record = n.record → ∃ lines, Gains lines n' ∧
        lines <+: linesOf front ∧
        (n'.record.outcome = some .completed →
          lines = linesOf front ∧ n'.terminal.queue = rest) := by
      intro n' hrecord
      refine ⟨[], ⟨?_, ?_⟩, List.nil_prefix, ?_⟩
      · rw [hrecord, hblank.summaries]
        rfl
      · rw [hrecord, hblank.telemetry]
        rfl
      · rw [hrecord, hblank.outcome]
        simp
    cases ending with
    | finished lines outcome time =>
      obtain ⟨hlines, hcompleted⟩ :=
        Vigil.watch_prompted hopen' (by rw [← ht, ← hq]) hfront hlast hw
      have hgains :=
        gains_finish (n := { n with terminal := t', phase := .awaiting }) hblank lines outcome
      exact ⟨lines, hgains, hlines, fun ho => hcompleted (Option.some.inj ho)⟩
    | cut => exact hnothing _ rfl
    | overflow time => exact hnothing _ rfl

end ProximityLab
