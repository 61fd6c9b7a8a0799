import ProximityLab.Proofs.Experiment.Sync
import ProximityLab.Proofs.Campaign.Prompted

/-!
# Devices before the start of a campaign

Where the synchronisation leaves the terminals of devices that answer each line with one reply
(`Behaviour.Answers`). Two commands are sent to each, and a terminal goes through three states:

- `Terminal.Fresh`: nothing was sent to it.
- `Terminal.Identified`: the question for the identifier was sent. What has not come in time of the
  reply is still in the queue, and is still to come.
- `Terminal.Adjusted`: the clock line was sent. If both replies have come in time
  (`Behaviour.Punctual`), nothing is left of them; else the queue begins with the end of one of
  them.

`Experiment.ready_syncAll`: a synchronisation that does not break off leaves all nodes `Ready`.
-/

namespace ProximityLab

/-! ## Commands that do not break off an experiment -/

namespace Talk

variable {s : Station} {limit : TimeSpan} {line : String} {settle : Nat}

/-- A command to a device that answers does not fail for the channel. -/
theorem command_error {h : Halt} {s' : Station} (hopen : s.terminal.closed = false)
    (hlines : ∀ d ∈ s.terminal.queue, ∃ text, d.output = .line text) (hnow : s.now ≤ s.horizon)
    (hb : s.terminal.behaviour.Answers settle)
    (hrun : (command limit line).run.run s = (.error h, s')) : h.breakoff? ≠ none := by
  have hasked := run_command limit hopen hlines hnow (hb.accepts s.terminal.attempts line)
    (hb.replies s.terminal.attempts line).lines
  rw [hrun] at hasked
  split at hasked
  · rename_i e hd
    rcases deadlineAfter_spec s.now limit with hs | hs <;> rw [hs] at hd <;> cases hd
    cases hasked
    simp [Halt.breakoff?]
  · unfold captured at hasked
    split at hasked
    · cases hasked
    · split at hasked
      · cases hasked
      · cases hasked
        simp [Halt.breakoff?]

end Talk

namespace Experiment

/-- A command to a node that does not break off the experiment. -/
structure Asks (limit : TimeSpan) (line : String) (now horizon : Nat) (n : Node) (now' : Nat)
    (n' : Node) : Prop where
  talk : ∃ result s', (Talk.command limit line).run.run ⟨now, horizon, n.terminal⟩ = (result, s') ∧
    s'.now = now' ∧ s'.terminal = n'.terminal ∧ ∀ h, result = .error h → h.breakoff? = none
  phase : n'.phase = n.phase
  blank : n.record.Blank → n'.record.Blank

theorem asks_identify {limit : TimeSpan} {now now' horizon : Nat} {n n' : Node}
    (h : identify limit now horizon n = (.ok (), now', n')) :
    Asks limit uidLine now horizon n now' n' := by
  unfold identify at h
  rw [Talk.uid, Talk.run_bind] at h
  rcases hr : (Talk.command limit uidLine).run.run ⟨now, horizon, n.terminal⟩ with ⟨e | capture, s'⟩
  · rw [hr] at h
    dsimp only at h
    split at h
    · rename_i hb
      cases h
      exact ⟨⟨_, s', hr, rfl, rfl, fun e' he => by cases he; exact hb⟩, rfl, id⟩
    · cases h
  · rw [hr] at h
    dsimp only [Talk.run_pure] at h
    split at h
    · cases h
      exact ⟨⟨_, s', hr, rfl, rfl, by simp⟩, rfl, id⟩
    · split at h
      · rename_i hset
        obtain ⟨-, -, rfl⟩ := Node.setUid_eq_ok_iff.1 hset
        cases h
        exact ⟨⟨_, s', hr, rfl, rfl, by simp⟩, rfl,
          fun hb => ⟨hb.summaries, hb.telemetry, hb.outcome⟩⟩
      · cases h
    · rename_i heq
      cases heq

theorem asks_adjust {limit : TimeSpan} {time : DateTime} {now now' horizon : Nat} {n n' : Node}
    (h : adjust limit time now horizon n = (.ok (), now', n')) :
    Asks limit (setTimeLine time) now horizon n now' n' := by
  unfold adjust at h
  rw [Talk.setTime] at h
  rcases hr : (Talk.command limit (setTimeLine time)).run.run ⟨now, horizon, n.terminal⟩ with
    ⟨e | capture, s'⟩
  · rw [hr] at h
    dsimp only at h
    split at h
    · rename_i hb
      cases h
      exact ⟨⟨_, s', hr, rfl, rfl, fun e' he => by cases he; exact hb⟩, rfl, id⟩
    · cases h
  · rw [hr] at h
    cases h
    exact ⟨⟨_, s', hr, rfl, rfl, by simp⟩, rfl, id⟩

end Experiment

/-! ## Terminals up to the start of a campaign -/

/-- A terminal that nothing was sent to. All that it has printed are lines that are due by a
moment. -/
structure Terminal.Fresh (settle due : Nat) (t : Terminal) : Prop where
  answers : t.behaviour.Answers settle
  attempts : t.attempts = []
  lines : ∀ d ∈ t.queue, ∃ text, d.output = .line text
  due : ∀ d ∈ t.queue, d.time ≤ due

/-- A terminal after the question for the identifier. If the reply has come in time, nothing is left
of it. -/
structure Terminal.Identified (settle : Nat) (limit : TimeSpan) (now : Nat) (t : Terminal) :
    Prop where
  answers : t.behaviour.Answers settle
  attempts : t.attempts = [uidLine]
  closed : t.closed = false
  lines : ∀ d ∈ t.queue, ∃ text, d.output = .line text
  punctual : latest (t.behaviour.reply [] uidLine) ≤ limit.millisUp → t.queue = []
  late : limit.millisUp < latest (t.behaviour.reply [] uidLine) →
    Remains (t.behaviour.reply [] uidLine) t.queue ∧ ∀ d ∈ t.queue, now < d.time

/-- The replies to the question for the identifier and to the clock line both come within a
limit. -/
def Behaviour.Punctual (b : Behaviour) (limit : TimeSpan) (time : DateTime) : Prop :=
  latest (b.reply [] uidLine) ≤ limit.millisUp ∧
    latest (b.reply [uidLine] (setTimeLine time)) ≤ limit.millisUp

/-- A terminal before the start of a campaign. If both replies have come in time, nothing is left of
them. Else the end of one of them is still there. -/
structure Terminal.Adjusted (settle : Nat) (limit : TimeSpan) (time : DateTime) (t : Terminal) :
    Prop where
  answers : t.behaviour.Answers settle
  attempts : t.attempts = [uidLine, setTimeLine time]
  closed : t.closed = false
  punctual : t.behaviour.Punctual limit time → t.queue = []
  late : ¬ t.behaviour.Punctual limit time →
    Owing (t.behaviour.reply [] uidLine) t.queue ∨
      Owing (t.behaviour.reply [uidLine] (setTimeLine time)) t.queue

theorem Terminal.fresh_opened {b : Behaviour} {settle : Nat} (h : b.Answers settle) (now : Nat) :
    (Terminal.opened now b).Fresh settle (now + settle) := by
  have hq : (Terminal.opened now b).queue = schedule now 0 b.banner := rfl
  refine ⟨h, rfl, fun d hd => ?_, fun d hd => ?_⟩
  · obtain ⟨t, ht, heq⟩ := exists_of_mem_schedule (hq ▸ hd)
    rw [← heq]
    exact h.banner t ht
  · have hle := le_of_mem_schedule_latest (hq ▸ hd)
    have hsettled := h.settled
    omega

theorem Terminal.Fresh.mono {settle due due' : Nat} {t : Terminal} (h : t.Fresh settle due)
    (hle : due ≤ due') : t.Fresh settle due' :=
  ⟨h.answers, h.attempts, h.lines, fun d hd => (h.due d hd).trans hle⟩

namespace Experiment

variable {limit : TimeSpan} {now now' horizon settle : Nat} {n n' : Node}

/-- A command to a node whose terminal is closed leaves the terminal as it is. -/
theorem Asks.closed {line : String} (h : Asks limit line now horizon n now' n')
    (hclosed : n.terminal.closed = true) : n'.terminal = n.terminal ∧ now' = now := by
  obtain ⟨result, s', hr, hnow, ht, -⟩ := h.talk
  rw [Talk.run_command_closed limit line hclosed] at hr
  obtain ⟨-, rfl⟩ := Prod.mk.inj hr
  exact ⟨ht.symm, hnow.symm⟩

/-- A command to a node whose device answers is not cut short. -/
theorem Asks.ok {line : String} (h : Asks limit line now horizon n now' n')
    (hopen : n.terminal.closed = false)
    (hlines : ∀ d ∈ n.terminal.queue, ∃ text, d.output = .line text) (hnow : now ≤ horizon)
    (hb : n.terminal.behaviour.Answers settle) :
    ∃ capture s', (Talk.command limit line).run.run ⟨now, horizon, n.terminal⟩ = (.ok capture, s') ∧
      s'.now = now' ∧ s'.terminal = n'.terminal := by
  obtain ⟨_ | capture, s', hr, hnow', ht, hhalt⟩ := h.talk
  · rename_i e
    exact absurd (hhalt e rfl)
      (Talk.command_error (s := ⟨now, horizon, n.terminal⟩) hopen hlines hnow hb hr)
  · exact ⟨capture, s', hr, hnow', ht⟩

theorem Asks.identified (h : Asks limit uidLine now horizon n now' n')
    (hopen : n.terminal.closed = false) (hfresh : n.terminal.Fresh settle now)
    (hnow : now ≤ horizon) :
    n'.terminal.Identified settle limit now' ∧ now ≤ now' ∧ now' ≤ horizon := by
  obtain ⟨capture, s', hr, rfl, ht⟩ := h.ok hopen hfresh.lines hnow hfresh.answers
  obtain ⟨hc, -⟩ := Talk.command_ok (s := ⟨now, horizon, n.terminal⟩) hopen hfresh.lines hnow
    hfresh.answers hr
  have hleft := Talk.command_of_due (s := ⟨now, horizon, n.terminal⟩) hopen hfresh.lines hnow
    hfresh.answers hr hfresh.due
  dsimp only at hleft
  obtain ⟨hbehaviour, hclosed, hattempts, hlines, -, hlater, hin⟩ := hc
  rw [ht] at hbehaviour hclosed hattempts hlines hleft
  rw [hfresh.attempts, ← hbehaviour] at hleft
  exact ⟨⟨hbehaviour ▸ hfresh.answers,
    by rw [hattempts, hfresh.attempts]; rfl, hclosed, hlines, hleft.1, hleft.2⟩, hlater, hin⟩

theorem Asks.adjusted {time : DateTime} (h : Asks limit (setTimeLine time) now horizon n now' n')
    (hid : n.terminal.Identified settle limit now) (hnow : now ≤ horizon) :
    n'.terminal.Adjusted settle limit time ∧ now ≤ now' ∧ now' ≤ horizon := by
  obtain ⟨capture, s', hr, rfl, ht⟩ := h.ok hid.closed hid.lines hnow hid.answers
  obtain ⟨hc, -⟩ := Talk.command_ok (s := ⟨now, horizon, n.terminal⟩) hid.closed hid.lines hnow
    hid.answers hr
  have hdue := Talk.command_of_due (s := ⟨now, horizon, n.terminal⟩) hid.closed hid.lines hnow
    hid.answers hr
  have hremains :=
    @Talk.command_of_remains ⟨now, horizon, n.terminal⟩ limit (setTimeLine time) settle
      capture s' hid.closed hid.lines hnow hid.answers hr _ (hid.answers.replies [] uidLine)
  obtain ⟨hbehaviour, hclosed, hattempts, -, -, hlater, hin⟩ := hc
  dsimp only at hdue hremains hbehaviour hattempts
  rw [ht] at hbehaviour hclosed hattempts hdue hremains
  rw [hid.attempts, ← hbehaviour] at hdue hremains
  refine ⟨⟨hbehaviour ▸ hid.answers, by rw [hattempts, hid.attempts]; rfl, hclosed, ?_, ?_⟩, hlater,
    hin⟩
  · rintro ⟨huid, htime⟩
    have hnil := hid.punctual (hbehaviour ▸ huid)
    exact (hdue (by simp [hnil])).1 htime
  · intro hlate
    by_cases huid : latest (n.terminal.behaviour.reply [] uidLine) ≤ limit.millisUp
    · have hnil := hid.punctual huid
      have htime : limit.millisUp <
          latest (n'.terminal.behaviour.reply [uidLine] (setTimeLine time)) := by
        by_contra hle
        exact hlate ⟨hbehaviour ▸ huid, by omega⟩
      obtain ⟨hown, -⟩ := (hdue (by simp [hnil])).2 htime
      exact .inr ⟨_, [], (List.append_nil _).symm, hown⟩
    · obtain ⟨hown, hcoming⟩ := hid.late (by omega)
      exact hremains (hbehaviour ▸ hown) hcoming

/-! ## The synchronisation of all devices -/

/-- A node before the start of a campaign. The terminal of a device that was provisioned twice is
closed. -/
structure Ready (settle : Nat) (limit : TimeSpan) (n : Node) : Prop where
  idle : n.phase = .idle
  blank : n.record.Blank
  terminal : n.terminal.closed = true ∧ n.terminal.attempts = [] ∨
    ∃ time, n.terminal.Adjusted settle limit time

/-- A node that nothing was done with. -/
structure Unused (settle due : Nat) (n : Node) : Prop where
  idle : n.phase = .idle
  blank : n.record.Blank
  terminal : n.terminal.Fresh settle due

theorem Unused.mono {due due' : Nat} (h : Unused settle due n) (hle : due ≤ due') :
    Unused settle due' n :=
  ⟨h.idle, h.blank, h.terminal.mono hle⟩

/-- Both commands make a node ready, one after the other. -/
theorem Unused.ready {time : DateTime} {now₁ now₂ : Nat} {n₁ n₂ : Node} (h : Unused settle now n)
    (hnow : now ≤ horizon) (hid : Asks limit uidLine now horizon n now₁ n₁)
    (hset : Asks limit (setTimeLine time) now₁ horizon n₁ now₂ n₂) :
    Ready settle limit n₂ ∧ now ≤ now₂ ∧ now₂ ≤ horizon := by
  have hready : ∀ hterminal, Ready settle limit n₂ := fun hterminal =>
    ⟨by rw [hset.phase, hid.phase, h.idle], hset.blank (hid.blank h.blank), hterminal⟩
  cases hc : n.terminal.closed with
  | true =>
    obtain ⟨ht₁, rfl⟩ := hid.closed hc
    obtain ⟨ht₂, rfl⟩ := hset.closed (ht₁ ▸ hc)
    rw [ht₁] at ht₂
    exact ⟨hready (.inl (by rw [ht₂]; exact ⟨hc, h.terminal.attempts⟩)), Nat.le_refl _, hnow⟩
  | false =>
    obtain ⟨hidentified, hle₁, hin₁⟩ := hid.identified hc h.terminal hnow
    obtain ⟨hadjusted, hle₂, hin₂⟩ := hset.adjusted hidentified hin₁
    exact ⟨hready (.inr ⟨time, hadjusted⟩), hle₁.trans hle₂, hin₂⟩

theorem ready_syncAll {o : Circumstances} {nodes nodes' : List Node}
    (h : syncAll limit o now nodes = (.ok (), now', nodes')) (hnow : now ≤ o.horizon)
    (hnodes : ∀ n ∈ nodes, Unused settle now n) : ∀ n ∈ nodes', Ready settle limit n := by
  induction nodes generalizing now nodes' with
  | nil =>
    cases h
    simp
  | cons n ns ih =>
    unfold syncAll at h
    split at h
    · cases h
    · rename_i now₁ n₁ hid
      split at h
      · cases h
      · rename_i now₂ n₂ hadj
        obtain ⟨hready, hle, hin⟩ := (hnodes n List.mem_cons_self).ready hnow (asks_identify hid)
          (asks_adjust hadj)
        rcases hrest : syncAll limit o now₂ ns with ⟨result, now₃, ns'⟩
        rw [hrest] at h
        cases h
        intro m hm
        rcases List.mem_cons.1 hm with rfl | hm
        · exact hready
        · exact ih hrest hin (fun x hx => (hnodes x (List.mem_cons_of_mem n hx)).mono hle) m hm

end Experiment

end ProximityLab
