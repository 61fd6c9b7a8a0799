import ProximityLab.Proofs.Campaign.Run
import ProximityLab.Proofs.Campaign.Timeline
import ProximityLab.Proofs.Session.Says

/-!
# What a campaign says to its nodes

- **Start**: the start line is tried on each terminal, once. Only a node that has taken it is waited
  for.
- **Stop**: a vigil says nothing but the stop line, and that only at the moment of the stop, which
  is not after the moment at which the vigil ends (`Vigil.says_watch`).
- **Campaign**: first the start lines, all at the beginning, then the stop lines of nodes that have
  taken their start line, all at the moment of the stop, which has come when the campaign ends
  (`Campaign.says_run`).
-/

namespace ProximityLab

open Terminal (Says)

/-! ## Moments -/

theorem Terminal.le_gather {admits : Nat → Bool} {now : Nat} {t : Terminal} {e : Ending}
    {time : Nat} (h : (t.gather admits now).ending = some (e, time)) : now ≤ time := by
  unfold Terminal.gather at h
  split at h
  · by_cases hnow : admits now = true
    · simp only [hnow, if_true, Option.some.injEq, Prod.mk.injEq] at h
      omega
    · simp [hnow] at h
  · exact (le_of_gather_ending h).1

/-- The moment at which a vigil ends. -/
def VigilEnd.moment (cut : Nat) : VigilEnd → Nat
  | .finished _ _ time => time
  | .cut => cut
  | .overflow time => time

namespace Vigil

variable {v : Vigil} {m : Nat}

/-- The stop comes neither after the deadline nor after the cut. -/
theorem of_stopsAt (h : v.stopsAt = some m) :
    v.stop = some m ∧ m ≤ v.cut ∧ ∀ d ∈ v.deadline, m ≤ d := by
  obtain ⟨hstop, hadmits⟩ := Option.filter_eq_some_iff.1 h
  simp only [admits, Bool.and_eq_true, decide_eq_true_eq] at hadmits
  refine ⟨hstop, hadmits.2, fun d hd => ?_⟩
  simpa [Option.mem_def.1 hd] using hadmits.1

theorem le_lapse {d : Nat} (lines : List String) (hd : m ≤ d) (hcut : m ≤ v.cut) :
    m ≤ (v.lapse (some d) lines).moment v.cut := by
  unfold lapse
  dsimp only
  split
  · exact hd
  · exact hcut

/-- A vigil that has sent the stop line ends no earlier than that. -/
theorem le_watchStopped (lines : List String) (t : Terminal) (hcut : m ≤ v.cut)
    (hd : ∀ d ∈ v.deadline, m ≤ d) : m ≤ (v.watchStopped m lines t).1.moment v.cut := by
  unfold watchStopped
  rcases hmoment : deadlineAfter m v.grace with _ | moment
  · exact Nat.le_refl m
  · dsimp only
    split
    · rename_i hending
      exact Terminal.le_gather hending
    · refine le_lapse _ ?_ hcut
      have hle := le_deadlineAfter hmoment
      unfold earlier
      split
      · rename_i d hdeadline
        exact Nat.le_min.2 ⟨hd d hdeadline, hle⟩
      · exact hle

theorem trials_watchStopped (v : Vigil) (m : Nat) (lines : List String) (t : Terminal) :
    (v.watchStopped m lines t).2.trials = t.trials := by
  unfold watchStopped
  split
  · rfl
  · dsimp only
    split <;> rfl

/-- Beyond the range of instants there is only the grace period after the stop. -/
theorem stop_of_overflow {t : Terminal} (h : (v.watch t).1 = .overflow m) : v.stop = some m := by
  unfold watch at h
  dsimp only at h
  split at h
  · cases h
  · split at h
    · rename_i s hs
      split at h
      · cases h
      · unfold watchStopped at h
        split at h
        · cases h
          exact (of_stopsAt hs).1
        · dsimp only at h
          split at h
          · cases h
          · dsimp only at h
            exact absurd h (v.lapse_in_range _ _ m)
    · exact absurd h (v.lapse_in_range _ _ m)

/-- A vigil says nothing, or the stop line once, at the moment of the stop. That is not after the
moment at which the vigil ends. -/
theorem says_watch (v : Vigil) (t : Terminal) :
    ∃ trials, (v.watch t).2.trials = t.trials ++ trials ∧ (trials = [] ∨
      ∃ m taken, trials = [⟨m, stopLine, taken⟩] ∧ v.stop = some m ∧ m ≤ v.cut ∧
        m ≤ (v.watch t).1.moment v.cut) := by
  unfold watch
  dsimp only
  generalize t.gather _ _ = g
  have hquiet : ({ t with queue := g.rest } : Terminal).trials = t.trials ++ [] :=
    (List.append_nil _).symm
  split
  · exact ⟨[], hquiet, .inl rfl⟩
  · split
    · rename_i m hm
      obtain ⟨hstop, hcut, hdeadline⟩ := of_stopsAt hm
      obtain ⟨trials, htrials, hsend⟩ :=
        Terminal.trials_send m stopLine { t with queue := g.rest }
      split
      · rename_i h
        rw [h] at hsend
        refine ⟨trials, hsend, htrials.imp_right ?_⟩
        rintro ⟨taken, rfl⟩
        exact ⟨m, taken, rfl, hstop, hcut, Nat.le_refl m⟩
      · rename_i t' h
        rw [h] at hsend
        refine ⟨trials, (trials_watchStopped v m g.lines t').trans hsend, htrials.imp_right ?_⟩
        rintro ⟨taken, rfl⟩
        exact ⟨m, taken, rfl, hstop, hcut, le_watchStopped g.lines t' hcut hdeadline⟩
    · exact ⟨[], hquiet, .inl rfl⟩

end Vigil

namespace Campaign

/-! ## Starting -/

theorem says_startNode (c : Campaign) (now : Nat) (n : Node) :
    Says [startLine c.params] now now n.terminal (c.startNode now n).terminal := by
  have h := Terminal.says_send now (startLine c.params) n.terminal
  unfold startNode
  split <;> rename_i hs <;> rw [hs] at h <;> exact h

/-- A node that is waited for has taken its start line. -/
theorem sent_startNode {c : Campaign} {now : Nat} {n : Node}
    (h : (c.startNode now n).phase = .awaiting) :
    startLine c.params ∈ (c.startNode now n).terminal.sent := by
  unfold startNode at h ⊢
  split
  · rename_i t hs
    obtain ⟨-, -, htrials⟩ := Terminal.send_eq_ok hs
    simp [Terminal.sent, htrials]
  · rename_i hs
    simp [hs, Node.finish, Outcome.phase] at h

theorem says_startAll (c : Campaign) (now : Nat) (nodes : List Node) :
    List.Forall₂ (fun n n' => Says [startLine c.params] now now n.terminal n'.terminal) nodes
      (c.startAll now nodes).2 := by
  refine (c.startAll_nodes now nodes).imp ?_
  rintro n _ (rfl | rfl)
  · exact c.says_startNode now n
  · exact .refl _ (Nat.le_refl now) _

/-! ## Stopping -/

section Stopping

variable {c : Campaign} {now cut : Nat} {stop : Option Nat} {p : Progress}

/-- The stop has come by now: nothing later than it has been waited for in vain. -/
def StopCame (cut : Nat) (stop : Option Nat) (p : Progress) : Prop :=
  ∃ m, stop = some m ∧ m ≤ cut ∧ (m ≤ p.time ∨ p.gaveUp = true ∨ p.overflow ≠ none)

/-- An overflow is at the stop. -/
def OverflowsAtStop (stop : Option Nat) (p : Progress) : Prop :=
  ∀ time, p.overflow = some time → stop = some time

/-- A node was told nothing since it was started, or it is waited for and was told to stop when that
had come. -/
def Told (stop : Option Nat) (came : Prop) (n n' : Node) : Prop :=
  ∃ trials, n'.terminal.trials = n.terminal.trials ++ trials ∧ (trials = [] ∨
    n.phase = .awaiting ∧ came ∧ ∃ m taken, stop = some m ∧ trials = [⟨m, stopLine, taken⟩])

theorem Told.mono {came came' : Prop} {n n' : Node} (h : Told stop came n n')
    (himp : came → came') : Told stop came' n n' := by
  obtain ⟨trials, htrials, hsaid⟩ := h
  exact ⟨trials, htrials, hsaid.imp_right fun ⟨hn, hcame, hm⟩ => ⟨hn, himp hcame, hm⟩⟩

theorem told_nothing (stop : Option Nat) (came : Prop) (n : Node) : Told stop came n n :=
  ⟨[], (List.append_nil _).symm, .inl rfl⟩

/-- No later vigil takes a stop back. -/
theorem StopCame.note (h : StopCame cut stop p) (e : VigilEnd) : StopCame cut stop (p.note e) := by
  obtain ⟨m, hstop, hcut, hcame⟩ := h
  refine ⟨m, hstop, hcut, ?_⟩
  cases e with
  | finished lines outcome time =>
    exact hcame.imp_left fun h => Nat.le_trans h (Nat.le_max_left _ _)
  | cut => exact .inr (.inl rfl)
  | overflow time =>
    refine hcame.imp_right fun h => h.imp_right fun h => ?_
    cases hp : p.overflow <;> simp_all [Progress.note]

/-- A stop that is not after the end of a vigil has come with it. -/
theorem stopCame_of_vigil {m : Nat} {e : VigilEnd} (hstop : stop = some m) (hcut : m ≤ cut)
    (he : m ≤ e.moment cut) (hp : p.overflow = none) : StopCame cut stop (p.note e) := by
  refine ⟨m, hstop, hcut, ?_⟩
  cases e with
  | finished lines outcome time => exact .inl (Nat.le_trans he (Nat.le_max_right _ _))
  | cut => exact .inr (.inl rfl)
  | overflow time => exact .inr (.inr (by simp [Progress.note, hp]))

theorem StopCame.awaitNext (h : StopCame cut stop p) (vigil : Option Nat → Vigil) (s : Started) :
    StopCame cut stop (awaitNext vigil p s) := by
  unfold Campaign.awaitNext
  split
  · exact StopCame.note (p := { p with nodes := p.nodes ++ [settle s.node _] }) h _
  · exact h

theorem le_awaitNext (vigil : Option Nat → Vigil) (p : Progress) (s : Started) :
    p.time ≤ (awaitNext vigil p s).time := by
  unfold Campaign.awaitNext
  split
  · dsimp only
    cases ((p.limit (vigil s.deadline)).watch s.node.terminal).1 with
    | finished lines outcome time => exact Nat.le_max_left _ _
    | cut => exact Nat.le_refl _
    | overflow time => exact Nat.le_refl _
  · exact Nat.le_refl _

/-- Only before an overflow is there a stop, and the vigil is the node's own then. -/
theorem of_limit_stop {v : Vigil} {m : Nat} (h : (p.limit v).stop = some m) :
    p.overflow = none ∧ p.limit v = v := by
  unfold Progress.limit at h ⊢
  split at h
  · cases h
  · rename_i hp
    exact ⟨hp, rfl⟩

/-- A node that is waited for is told to stop only if the stop has come. -/
theorem awaitNext_told (c : Campaign) (now cut : Nat) (stop : Option Nat) (s : Started)
    (hover : OverflowsAtStop stop p) :
    let q := awaitNext (c.vigil now cut stop) p s
    ∃ n, q.nodes = p.nodes ++ [n] ∧ Told stop (StopCame cut stop q) s.node n ∧
      OverflowsAtStop stop q := by
  intro q
  unfold q
  unfold Campaign.awaitNext
  split
  · rename_i hs
    have hphase : s.node.phase = .awaiting := by simpa [Started.awaited] using hs
    generalize hv : p.limit (c.vigil now cut stop s.deadline) = v
    have hown : ∀ m, v.stop = some m → p.overflow = none ∧ stop = some m ∧ v.cut = cut := by
      intro m hm
      obtain ⟨hp, heq⟩ := of_limit_stop (hv ▸ hm)
      obtain rfl := hv.symm.trans heq
      exact ⟨hp, hm, rfl⟩
    obtain ⟨trials, htrials, hsaid⟩ := v.says_watch s.node.terminal
    refine ⟨_, Progress.nodes_note _ _, ⟨trials, by rw [settle_terminal, htrials], ?_⟩, ?_⟩
    · refine hsaid.imp_right ?_
      rintro ⟨m, taken, rfl, hm, hcut, hmoment⟩
      obtain ⟨hp, hstop, rfl⟩ := hown m hm
      exact ⟨hphase, stopCame_of_vigil hstop hcut hmoment hp, m, taken, hstop, rfl⟩
    · intro time htime
      dsimp only at htime
      rcases he : (v.watch s.node.terminal).1 with ⟨lines, outcome, time'⟩ | _ | time' <;>
        rw [he] at htime
      · exact hover time htime
      · exact hover time htime
      · cases hp : p.overflow with
        | some earlier =>
          refine hover time ?_
          simpa [Progress.note, hp] using htime
        | none =>
          obtain rfl : time' = time := by simpa [Progress.note, hp] using htime
          exact (hown _ (Vigil.stop_of_overflow he)).2.1
  · exact ⟨s.node, rfl, told_nothing _ _ _, hover⟩

/-- Each node that was waited for was told what a vigil tells. -/
theorem foldl_awaitNext_told (c : Campaign) (now cut : Nat) (stop : Option Nat) (l : List Started)
    (hover : OverflowsAtStop stop p) :
    let q := l.foldl (awaitNext (c.vigil now cut stop)) p
    (∃ nodes, q.nodes = p.nodes ++ nodes ∧
      List.Forall₂ (fun s n => Told stop (StopCame cut stop q) s.node n) l nodes) ∧
    (StopCame cut stop p → StopCame cut stop q) ∧ OverflowsAtStop stop q ∧ p.time ≤ q.time := by
  -- a stop that came once has come at the end
  induction l generalizing p with
  | nil => exact ⟨⟨[], by simp, .nil⟩, id, hover, Nat.le_refl _⟩
  | cons s l ih =>
    obtain ⟨n, hn, htold, hover'⟩ := awaitNext_told c now cut stop s hover
    obtain ⟨⟨nodes, hnodes, hrest⟩, hcame, hover'', hle⟩ := ih hover'
    rw [List.foldl_cons]
    refine ⟨⟨n :: nodes, ?_, .cons (htold.mono hcame) hrest⟩, fun h => hcame (h.awaitNext _ s),
      hover'', Nat.le_trans (le_awaitNext _ p s) hle⟩
    rw [hnodes, hn, List.append_assoc, List.singleton_append]

end Stopping

/-! ## The whole campaign -/

/-- What a started node was told up to a moment: the stop line, if it had taken its start line and
that is the moment of the stop. -/
structure Stops (c : Campaign) (stop : Option Nat) (m : Nat) (n n' : Node) : Prop where
  lines : Says [stopLine] m m n.terminal n'.terminal
  stop : n'.terminal.trials ≠ n.terminal.trials →
    startLine c.params ∈ n.terminal.sent ∧ stop = some m

theorem Stops.refl (c : Campaign) (stop : Option Nat) (m : Nat) (n : Node) : Stops c stop m n n :=
  ⟨.refl _ (Nat.le_refl m) _, fun h => absurd rfl h⟩

/-- All stop lines are sent at one moment. It is that of the stop if that has come; otherwise there
are no stop lines, and any moment will do. -/
theorem exists_stops {c : Campaign} {now cut time : Nat} {stop : Option Nat} {nodes : List Node}
    (hnow : now ≤ time) (hstop : ∀ m ∈ stop, now ≤ m)
    (hcame : ∀ m, stop = some m → StopCame cut stop (c.progress now cut stop nodes) → m ≤ time) :
    ∃ m, now ≤ m ∧ m ≤ time ∧ List.Forall₂ (Stops c stop m) (nodes.map (c.startNode now))
      (c.progress now cut stop nodes).nodes := by
  obtain ⟨⟨l, hl, htold⟩, -, -, -⟩ := foldl_awaitNext_told c now cut stop
    (nodes.map (c.started now)) (p := ⟨[], now, false, none⟩) (by simp [OverflowsAtStop])
  rw [← progress, List.nil_append] at hl
  rw [← progress, List.forall₂_map_left_iff] at htold
  rw [hl]
  simp only [List.forall₂_map_left_iff]
  by_cases h : StopCame cut stop (c.progress now cut stop nodes)
  · obtain ⟨m, hm, -⟩ := id h
    refine ⟨m, hstop m hm, hcame m hm h, htold.imp ?_⟩
    rintro n n' ⟨trials, htrials, rfl | ⟨hphase, -, m', taken, hm', rfl⟩⟩
    · rw [List.append_nil] at htrials
      exact ⟨.nothing htrials (Nat.le_refl m) _, fun hne => absurd htrials hne⟩
    · obtain rfl := Option.some.inj (hm.symm.trans hm')
      exact ⟨⟨_, htrials, .refl _, .single (Nat.le_refl m) (Nat.le_refl m)⟩,
        fun _ => ⟨sent_startNode hphase, hm⟩⟩
  · refine ⟨now, Nat.le_refl now, hnow, htold.imp ?_⟩
    rintro n n' ⟨trials, htrials, rfl | ⟨-, hcame, -⟩⟩
    · rw [List.append_nil] at htrials
      exact ⟨.nothing htrials (Nat.le_refl now) _, fun hne => absurd htrials hne⟩
    · exact absurd hcame h

/-- A campaign tries its start line on each terminal at its beginning, and then the stop line, at
one moment, on those that have taken it. It does that only at the moment of the stop. -/
theorem says_run (c : Campaign) {now cut : Nat} {stop : Option Nat} (nodes : List Node)
    (hcut : now ≤ cut) (hstop : ∀ m ∈ stop, now ≤ m) :
    List.Forall₂ (fun n n' => Says [startLine c.params] now now n.terminal n'.terminal) nodes
        (c.run now cut stop nodes).started ∧
      ∃ m, now ≤ m ∧ m ≤ (c.run now cut stop nodes).time ∧
        List.Forall₂ (Stops c stop m) (c.run now cut stop nodes).started
          (c.run now cut stop nodes).nodes := by
  have hsame : ∀ l : List Node,
      List.Forall₂ (fun n n' => Says [startLine c.params] now now n.terminal n'.terminal) l l :=
    fun l => List.forall₂_same.2 fun m _ => .refl m.terminal (Nat.le_refl now) _
  have hquiet : ∀ l : List Node,
      ∃ m, now ≤ m ∧ m ≤ now ∧ List.Forall₂ (Stops c stop m) l l := fun l =>
    ⟨now, Nat.le_refl now, Nat.le_refl now, List.forall₂_same.2 fun m _ => .refl c stop now m⟩
  have hstarted : List.Forall₂
      (fun n n' => Says [startLine c.params] now now n.terminal n'.terminal) nodes
      (nodes.map (c.startNode now)) := by
    rw [List.forall₂_map_right_iff, List.forall₂_same]
    exact fun n _ => c.says_startNode now n
  obtain ⟨-, -, hover, hle⟩ := foldl_awaitNext_told c now cut stop
    (nodes.map (c.started now)) (p := ⟨[], now, false, none⟩) (by simp [OverflowsAtStop])
  rw [← progress] at hover hle
  have hrun := c.runs now cut stop nodes
  generalize c.run now cut stop nodes = r at hrun ⊢
  cases hrun with
  | refused | endless => exact ⟨hsame _, hquiet _⟩
  | unlimited hreached => exact ⟨hreached ▸ c.says_startAll now nodes, hquiet _⟩
  | @overflowed p hp hrange time htime =>
    subst hp
    have hattime := hover time htime
    refine ⟨hstarted, exists_stops (hstop time hattime) hstop ?_⟩
    intro m hm _
    exact Nat.le_of_eq (Option.some.inj (hm.symm.trans hattime))
  | @gaveUp p hp hrange hnone hgave =>
    subst hp
    refine ⟨hstarted, exists_stops hcut hstop ?_⟩
    rintro m hm ⟨m', hm', hle', -⟩
    exact Option.some.inj (hm.symm.trans hm') ▸ hle'
  | @done p hp hrange hnone hgave =>
    subst hp
    refine ⟨hstarted, exists_stops hle hstop ?_⟩
    rintro m hm ⟨m', hm', -, hcame⟩
    obtain rfl := Option.some.inj (hm.symm.trans hm')
    simpa [hnone, hgave] using hcame

end Campaign

end ProximityLab
