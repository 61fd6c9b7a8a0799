import ProximityLab.Campaign.Run
import ProximityLab.Proofs.Terminal.Handle
import Mathlib.Data.List.Forall2

/-!
# What a campaign does to its nodes

- **Starts** (`startAll_ok`, `startAll_error`): all nodes are started, each with the deadline of its
  own, unless a deadline is beyond the range of instants.
- **Vigils** (`awaitAll_eq`): the nodes that have taken their start line are waited for one after
  the other, and go back to their places.
- **Ways** (`Runs`): one inversion for how a campaign ends (`runs`), from which the rest follows.
- **Use**: whatever way a campaign ends, each node comes back at its place with a terminal that
  follows the one it had (`uses_run`).
- **Result**: in a campaign that leaves the range of instants for no node, each node is started and
  then resolved by a vigil of its own (`run_spec`), which knows nothing of the other nodes.
- **Range**: no node leaves it if the deadline and the grace period after the stop are within it
  (`run_in_range`).
-/

namespace ProximityLab

namespace Vigil

theorem follows_watchStopped (v : Vigil) (s : Nat) (lines : List String) (t : Terminal) :
    t.Follows (v.watchStopped s lines t).2 := by
  unfold watchStopped
  split
  · exact .refl t
  · dsimp only
    split <;> exact .of_queue t _

theorem follows_watch (v : Vigil) (t : Terminal) : t.Follows (v.watch t).2 := by
  unfold watch
  dsimp only
  generalize t.gather _ _ = g
  have hq := Terminal.Follows.of_queue t g.rest
  split
  · exact hq
  · split
    · rename_i s _
      have hs := hq.trans (Terminal.follows_send s stopLine { t with queue := g.rest })
      split
      · rename_i h
        rwa [h] at hs
      · rename_i t' h
        rw [h] at hs
        exact hs.trans (v.follows_watchStopped s g.lines t')
    · exact hq

theorem lapse_in_range (v : Vigil) (deadline : Option Nat) (lines : List String) (time : Nat) :
    v.lapse deadline lines ≠ .overflow time := by
  unfold lapse
  split
  · split <;> simp
  · simp

/-- A vigil stays within the range of instants if the grace period after its stop does. -/
theorem watch_in_range {v : Vigil}
    (hgrace : ∀ s ∈ v.stop, ∃ moment, deadlineAfter s v.grace = .ok moment) (t : Terminal)
    (time : Nat) : (v.watch t).1 ≠ .overflow time := by
  unfold watch
  dsimp only
  generalize t.gather _ _ = g
  split
  · simp
  · split
    · rename_i s hs
      obtain ⟨moment, hg⟩ := hgrace s (Option.eq_some_of_filter_eq_some hs)
      split
      · simp
      · rename_i t' _
        unfold watchStopped
        rw [hg]
        dsimp only
        split
        · simp
        · dsimp only
          exact v.lapse_in_range _ _ time
    · exact v.lapse_in_range _ _ time

/-- What becomes of a node that was sent its start line and, if it has taken that, is watched. -/
def resolve (v : Vigil) (n : Node) : Node :=
  if n.phase = .awaiting then Campaign.settle n (v.watch n.terminal) else n

end Vigil

namespace Campaign

/-- The node holds the terminal of the other after some use. -/
def Uses (n n' : Node) : Prop := n.terminal.Follows n'.terminal

theorem settle_terminal (n : Node) (r : VigilEnd × Terminal) : (settle n r).terminal = r.2 := by
  rcases r with ⟨_ | _ | _, t⟩ <;> rfl

theorem uses_resolve (v : Vigil) (n : Node) : Uses n (v.resolve n) := by
  unfold Uses Vigil.resolve
  split
  · rw [settle_terminal]
    exact v.follows_watch _
  · exact .refl _

/-! ## Starting the nodes -/

theorem uses_startNode (c : Campaign) (now : Nat) (n : Node) : Uses n (c.startNode now n) := by
  have h := Terminal.follows_send now (startLine c.params) n.terminal
  unfold startNode
  split <;> rename_i hs <;> rw [hs] at h <;> exact h

/-- Each node has been started, or is as it was because the deadline of an earlier one is out of
range. -/
theorem startAll_nodes (c : Campaign) (now : Nat) (nodes : List Node) :
    List.Forall₂ (fun n n' => n' = c.startNode now n ∨ n' = n) nodes (c.startAll now nodes).2 := by
  induction nodes with
  | nil => exact .nil
  | cons n ns ih =>
    unfold startAll
    dsimp only
    split
    · exact .cons (.inl rfl) (List.forall₂_same.2 fun m _ => .inr rfl)
    · exact .cons (.inl rfl) ih

theorem uses_startAll (c : Campaign) (now : Nat) (nodes : List Node) :
    List.Forall₂ Uses nodes (c.startAll now nodes).2 := by
  refine (c.startAll_nodes now nodes).imp ?_
  rintro n _ (rfl | rfl)
  · exact c.uses_startNode now n
  · exact .refl _

/-- A node that was started, with the deadline of its own. -/
def started (c : Campaign) (now : Nat) (n : Node) : Started :=
  ⟨c.startNode now n, (c.deadlineOf now (c.startNode now n)).toOption.join⟩

theorem deadline_started {c : Campaign} {now : Nat} {n : Node} {deadline : Option Nat}
    (hn : (c.startNode now n).phase = .awaiting) (hd : c.deadline now = .ok deadline) :
    (c.started now n).deadline = deadline := by
  simp [started, deadlineOf, hn, hd, Except.toOption]

/-- When all deadlines are in range, all nodes have been started, and each is paired with the
deadline of its own. -/
theorem startAll_ok {c : Campaign} {now : Nat} {nodes reached : List Node}
    {deadlines : List (Option Nat)} (h : c.startAll now nodes = (.ok deadlines, reached)) :
    reached = nodes.map (c.startNode now) ∧
      reached.zipWith Started.mk deadlines = nodes.map (c.started now) ∧
      ∀ n ∈ nodes, (c.startNode now n).phase = .awaiting → ∀ h, c.deadline now ≠ .error h := by
  induction nodes generalizing reached deadlines with
  | nil =>
    cases h
    exact ⟨rfl, rfl, by simp⟩
  | cons n ns ih =>
    unfold startAll at h
    dsimp only at h
    split at h
    · cases h
    · rename_i deadline hd
      rcases hrest : c.startAll now ns with ⟨_ | rest, reached'⟩
      · rw [hrest] at h
        cases h
      · rw [hrest] at h
        cases h
        obtain ⟨rfl, hzip, hrange⟩ := ih hrest
        refine ⟨rfl, ?_, List.forall_mem_cons.2 ⟨fun hn h hdeadline => ?_, hrange⟩⟩
        · rw [List.zipWith_cons_cons, hzip, List.map_cons, started, hd]
          rfl
        · rw [deadlineOf, if_pos hn, hdeadline] at hd
          cases hd

/-- Only a node that is waited for has a deadline that can be out of range. -/
theorem startAll_error {c : Campaign} {now : Nat} {nodes reached : List Node} {h : Halt}
    (hs : c.startAll now nodes = (.error h, reached)) :
    c.deadline now = .error h ∧ ∃ n ∈ nodes, (c.startNode now n).phase = .awaiting := by
  induction nodes generalizing reached with
  | nil => cases hs
  | cons n ns ih =>
    unfold startAll at hs
    dsimp only at hs
    split at hs
    · rename_i h' hd
      cases hs
      unfold deadlineOf at hd
      split at hd
      · rename_i hn
        exact ⟨hd, n, List.mem_cons_self, hn⟩
      · cases hd
    · rcases hrest : c.startAll now ns with ⟨h' | rest, reached'⟩
      · rw [hrest] at hs
        cases hs
        obtain ⟨hd, m, hm, hphase⟩ := ih hrest
        exact ⟨hd, m, List.mem_cons_of_mem n hm, hphase⟩
      · rw [hrest] at hs
        cases hs

/-! ## Waiting for the nodes -/

namespace Progress

@[simp] theorem nodes_note (p : Progress) (e : VigilEnd) : (p.note e).nodes = p.nodes := by
  cases e <;> rfl

/-- An overflow is not forgotten. -/
theorem overflow_note_eq_none {p : Progress} {e : VigilEnd} :
    (p.note e).overflow = none ↔ p.overflow = none ∧ ∀ time, e ≠ .overflow time := by
  cases e <;> simp [note]

end Progress

/-- Waits for one more node, or passes over it. What comes of it stands behind what has come of the
others. -/
def awaitNext (vigil : Option Nat → Vigil) (p : Progress) (s : Started) : Progress :=
  if s.awaited then
    let result := (p.limit (vigil s.deadline)).watch s.node.terminal
    { p with nodes := p.nodes ++ [settle s.node result] }.note result.1
  else { p with nodes := p.nodes ++ [s.node] }

theorem awaitNext_nodes (vigil : Option Nat → Vigil) (p : Progress) (s : Started) :
    (awaitNext vigil p s).nodes = p.nodes ++ [(p.limit (vigil s.deadline)).resolve s.node] := by
  unfold awaitNext Vigil.resolve Started.awaited
  by_cases hs : s.node.phase = .awaiting <;> simp [hs]

/-- A node that is waited for is found at its place, and goes back there. -/
theorem awaitNode_eq (vigil : Option Nat → Vigil) (p : Progress) {s : Started} (back : List Node)
    (hs : s.awaited = true) :
    awaitNode vigil { p with nodes := p.nodes ++ s.node :: back } s p.nodes.length =
      { awaitNext vigil p s with nodes := (awaitNext vigil p s).nodes ++ back } := by
  have hset : ∀ n : Node, (p.nodes ++ s.node :: back).set p.nodes.length n =
      p.nodes ++ [n] ++ back := by simp
  unfold awaitNode awaitNext
  rw [if_pos hs]
  dsimp only
  rw [hset]
  change { p with nodes := _ }.note ((p.limit (vigil s.deadline)).watch s.node.terminal).1 = _
  cases ((p.limit (vigil s.deadline)).watch s.node.terminal).1 <;> rfl

/-- Taking the nodes that are waited for out of their list and putting them back makes of each what
it becomes in its turn. -/
theorem awaitAll_eq (vigil : Option Nat → Vigil) (now : Nat) {nodes : List Node}
    {deadlines : List (Option Nat)} {l : List Started}
    (hnodes : nodes = l.map (·.node)) (hl : nodes.zipWith Started.mk deadlines = l) :
    awaitAll vigil now nodes deadlines = l.foldl (awaitNext vigil) ⟨[], now, false, none⟩ := by
  -- the nodes of `p` have had their turn, those of `l` stand behind them
  have hfold : ∀ (l : List Started) (p : Progress),
      ((l.zipIdx p.nodes.length).filter (·.1.awaited)).foldl
          (fun p e => awaitNode vigil p e.1 e.2) { p with nodes := p.nodes ++ l.map (·.node) } =
        l.foldl (awaitNext vigil) p := by
    intro l
    induction l with
    | nil => simp
    | cons s l ih =>
      intro p
      have hrest := ih (awaitNext vigil p s)
      rw [awaitNext_nodes, List.length_append, List.length_singleton] at hrest
      rw [List.zipIdx_cons, List.map_cons, List.foldl_cons, ← hrest]
      by_cases hs : s.awaited = true
      · rw [List.filter_cons, if_pos hs, List.foldl_cons, awaitNode_eq vigil p _ hs,
          awaitNext_nodes]
      · have hphase : s.node.phase ≠ .awaiting := by simpa [Started.awaited] using hs
        rw [List.filter_cons, if_neg hs, awaitNext, if_neg hs, Vigil.resolve, if_neg hphase]
        simp
  rw [awaitAll, pending, hl, hnodes]
  exact hfold l ⟨[], now, false, none⟩

/-- Each node comes back as some vigil resolved it. -/
theorem foldl_awaitNext_nodes (vigil : Option Nat → Vigil) (l : List Started) (p : Progress) :
    ∃ nodes, (l.foldl (awaitNext vigil) p).nodes = p.nodes ++ nodes ∧
      List.Forall₂ (fun s n => ∃ v : Vigil, n = v.resolve s.node) l nodes := by
  induction l generalizing p with
  | nil => exact ⟨[], by simp, .nil⟩
  | cons s l ih =>
    obtain ⟨nodes, hnodes, hrest⟩ := ih (awaitNext vigil p s)
    refine ⟨_ :: nodes, ?_, .cons ⟨p.limit (vigil s.deadline), rfl⟩ hrest⟩
    rw [List.foldl_cons, hnodes, awaitNext_nodes, List.append_assoc, List.singleton_append]

/-- The vigil goes out of the range of instants for this node. -/
def Overflows (v : Vigil) (n : Node) : Prop :=
  n.phase = .awaiting ∧ ∃ time, (v.watch n.terminal).1 = .overflow time

/-- As long as nothing overflows, the vigil of a node is its own. -/
theorem awaitNext_overflow_iff (vigil : Option Nat → Vigil) (p : Progress) (s : Started) :
    (awaitNext vigil p s).overflow = none ↔
      p.overflow = none ∧ ¬ Overflows (vigil s.deadline) s.node := by
  unfold awaitNext Overflows Started.awaited
  by_cases hs : s.node.phase = .awaiting
  · simp only [hs, decide_true, if_true, Progress.overflow_note_eq_none, true_and, not_exists]
    refine and_congr_right fun hp => ?_
    simp [Progress.limit, hp]
  · simp [hs]

/-- Unless an instant goes out of range, each node is resolved by the vigil for its own deadline. -/
theorem foldl_awaitNext_spec (vigil : Option Nat → Vigil) (l : List Started) (p : Progress) :
    ((l.foldl (awaitNext vigil) p).overflow = none ↔
        p.overflow = none ∧ ∀ s ∈ l, ¬ Overflows (vigil s.deadline) s.node) ∧
      ((l.foldl (awaitNext vigil) p).overflow = none →
        (l.foldl (awaitNext vigil) p).nodes =
          p.nodes ++ l.map fun s => (vigil s.deadline).resolve s.node) := by
  induction l generalizing p with
  | nil => simp
  | cons s l ih =>
    obtain ⟨hiff, hnodes⟩ := ih (awaitNext vigil p s)
    rw [List.foldl_cons]
    refine ⟨?_, fun hnone => ?_⟩
    · rw [hiff, awaitNext_overflow_iff, List.forall_mem_cons, and_assoc]
    · have hp := ((awaitNext_overflow_iff vigil p s).1 (hiff.1 hnone).1).1
      have hlimit : p.limit (vigil s.deadline) = vigil s.deadline := by simp [Progress.limit, hp]
      rw [hnodes hnone, awaitNext_nodes, hlimit, List.map_cons, List.append_assoc,
        List.singleton_append]

/-! ## The whole campaign -/

/-- What a campaign makes of a node: it is started, and if it is waited for, that is up to the
deadline of its own. -/
def resolve (c : Campaign) (now cut : Nat) (stop : Option Nat) (n : Node) : Node :=
  (c.vigil now cut stop (c.started now n).deadline).resolve (c.startNode now n)

theorem follows_resolve (c : Campaign) (now cut : Nat) (stop : Option Nat) (n : Node) :
    n.terminal.Follows (c.resolve now cut stop n).terminal :=
  (c.uses_startNode now n).trans (uses_resolve _ _)

/-- The campaign goes out of the range of instants for this node. -/
def OverflowsAt (c : Campaign) (now cut : Nat) (stop : Option Nat) (n : Node) : Prop :=
  (c.startNode now n).phase = .awaiting ∧ ((∃ h, c.deadline now = .error h) ∨
    Overflows (c.vigil now cut stop (c.started now n).deadline) (c.startNode now n))

/-- What has become of the nodes of a campaign, one after the other. -/
def progress (c : Campaign) (now cut : Nat) (stop : Option Nat) (nodes : List Node) : Progress :=
  (nodes.map (c.started now)).foldl (awaitNext (c.vigil now cut stop)) ⟨[], now, false, none⟩

theorem progress_nodes (c : Campaign) (now cut : Nat) (stop : Option Nat) (nodes : List Node) :
    List.Forall₂ (fun n n' => ∃ v : Vigil, n' = v.resolve n) (nodes.map (c.startNode now))
      (c.progress now cut stop nodes).nodes := by
  obtain ⟨resolved, hnodes, hall⟩ := foldl_awaitNext_nodes (c.vigil now cut stop)
    (nodes.map (c.started now)) ⟨[], now, false, none⟩
  rw [progress, hnodes, List.nil_append, List.forall₂_map_left_iff]
  rwa [List.forall₂_map_left_iff] at hall

theorem progress_spec (c : Campaign) (now cut : Nat) (stop : Option Nat) (nodes : List Node) :
    ((c.progress now cut stop nodes).overflow = none ↔ ∀ n ∈ nodes,
        ¬ Overflows (c.vigil now cut stop (c.started now n).deadline) (c.startNode now n)) ∧
      ((c.progress now cut stop nodes).overflow = none →
        (c.progress now cut stop nodes).nodes = nodes.map (c.resolve now cut stop)) := by
  obtain ⟨hover, hnodes⟩ := foldl_awaitNext_spec (c.vigil now cut stop)
    (nodes.map (c.started now)) ⟨[], now, false, none⟩
  refine ⟨by simpa [progress, started] using hover, fun hnone => ?_⟩
  rw [progress, hnodes hnone, List.nil_append, List.map_map]
  rfl

/-- No deadline is out of range. -/
structure InRange (c : Campaign) (now : Nat) (nodes : List Node) : Prop where
  timeout : c.params.timeout c.slack ≠ .error .overflow
  deadline : ∀ n ∈ nodes, (c.startNode now n).phase = .awaiting → ∀ h, c.deadline now ≠ .error h

theorem overflowsAt_iff {c : Campaign} {now cut : Nat} {stop : Option Nat} {nodes : List Node}
    {n : Node} (h : c.InRange now nodes) (hn : n ∈ nodes) : c.OverflowsAt now cut stop n ↔
      Overflows (c.vigil now cut stop (c.started now n).deadline) (c.startNode now n) := by
  refine ⟨fun ⟨hphase, ho⟩ => ?_, fun ho => ⟨ho.1, .inr ho⟩⟩
  rcases ho with ⟨e, he⟩ | ho
  · exact absurd he (h.deadline n hn hphase e)
  · exact ho

/-- The ways in which a campaign goes. It is refused because of a node that takes part in another
one; its length is out of range, or the deadline of a node is; or all nodes are started, and those
that are waited for go out of range, are given up or leave the campaign. -/
inductive Runs (c : Campaign) (now cut : Nat) (stop : Option Nat) (nodes : List Node) :
    RunResult → Prop where
  | refused {n : Node} (hn : n ∈ nodes) (hflight : n.phase.inFlight = true) :
      Runs c now cut stop nodes ⟨.busy (.notIdle n.id "start an epoch"), now, nodes, nodes⟩
  | endless (htimeout : c.params.timeout c.slack = .error .overflow) :
      Runs c now cut stop nodes ⟨.overflow, now, nodes, nodes⟩
  | unlimited {reached : List Node} (hreached : (c.startAll now nodes).2 = reached)
      (htimeout : c.params.timeout c.slack ≠ .error .overflow) {h : Halt}
      (hdeadline : c.deadline now = .error h)
      (hn : ∃ n ∈ nodes, (c.startNode now n).phase = .awaiting) :
      Runs c now cut stop nodes ⟨.overflow, now, reached, reached⟩
  | overflowed {p : Progress} (hp : c.progress now cut stop nodes = p)
      (hrange : c.InRange now nodes) {time : Nat} (hover : p.overflow = some time) :
      Runs c now cut stop nodes ⟨.overflow, time, nodes.map (c.startNode now), p.nodes⟩
  | gaveUp {p : Progress} (hp : c.progress now cut stop nodes = p) (hrange : c.InRange now nodes)
      (hover : p.overflow = none) (hgave : p.gaveUp = true) :
      Runs c now cut stop nodes ⟨.cut, cut, nodes.map (c.startNode now), p.nodes⟩
  | done {p : Progress} (hp : c.progress now cut stop nodes = p) (hrange : c.InRange now nodes)
      (hover : p.overflow = none) (hgave : p.gaveUp = false) :
      Runs c now cut stop nodes ⟨.done, p.time, nodes.map (c.startNode now), p.nodes⟩

theorem runs (c : Campaign) (now cut : Nat) (stop : Option Nat) (nodes : List Node) :
    Runs c now cut stop nodes (c.run now cut stop nodes) := by
  unfold run
  split
  · rename_i n hfind
    exact .refused (List.mem_of_find?_eq_some hfind)
      (List.find?_some (p := fun n : Node => n.phase.inFlight) hfind)
  · split
    · rename_i h ht
      cases h
      exact .endless ht
    · rename_i ht
      have htimeout : c.params.timeout c.slack ≠ .error .overflow := by simp [ht]
      split
      · rename_i h reached hs
        obtain ⟨hd, hn⟩ := startAll_error hs
        exact .unlimited (by rw [hs]) htimeout hd hn
      · rename_i deadlines reached hs
        obtain ⟨rfl, hzip, hdeadline⟩ := startAll_ok hs
        have hrange : c.InRange now nodes := ⟨htimeout, hdeadline⟩
        have hp : awaitAll (c.vigil now cut stop) now (nodes.map (c.startNode now)) deadlines =
            c.progress now cut stop nodes :=
          awaitAll_eq _ now (by simp [started]) hzip
        dsimp only
        rw [hp]
        split
        · rename_i hover
          exact .overflowed rfl hrange hover
        · rename_i hover
          split
          · rename_i hgave
            exact .gaveUp rfl hrange hover hgave
          · rename_i hgave
            exact .done rfl hrange hover (by simpa using hgave)

/-- However a campaign ends, each node was used by its start and then by its vigil. -/
theorem uses_run (c : Campaign) (now cut : Nat) (stop : Option Nat) (nodes : List Node) :
    List.Forall₂ Uses nodes (c.run now cut stop nodes).started ∧
      List.Forall₂ Uses (c.run now cut stop nodes).started (c.run now cut stop nodes).nodes := by
  have hsame : ∀ l : List Node, List.Forall₂ Uses l l := fun l =>
    List.forall₂_same.2 fun m _ => .refl m.terminal
  have hstarted : List.Forall₂ Uses nodes (nodes.map (c.startNode now)) := by
    rw [List.forall₂_map_right_iff, List.forall₂_same]
    exact fun n _ => c.uses_startNode now n
  have hawaited : List.Forall₂ Uses (nodes.map (c.startNode now))
      (c.progress now cut stop nodes).nodes := by
    refine (c.progress_nodes now cut stop nodes).imp ?_
    rintro n _ ⟨v, rfl⟩
    exact uses_resolve v n
  have hrun := c.runs now cut stop nodes
  generalize c.run now cut stop nodes = r at hrun ⊢
  cases hrun with
  | refused | endless => exact ⟨hsame _, hsame _⟩
  | unlimited hreached => exact ⟨hreached ▸ c.uses_startAll now nodes, hsame _⟩
  | overflowed hp | gaveUp hp | done hp => exact ⟨hstarted, hp ▸ hawaited⟩

/-- A campaign without a node that is in another one goes out of the range of instants at once, or
for one of its nodes; else each node is started and resolved for itself. -/
theorem run_spec (c : Campaign) (now cut : Nat) (stop : Option Nat) {nodes : List Node}
    (hidle : ∀ n ∈ nodes, n.phase.inFlight = false) :
    ((c.run now cut stop nodes).ending = .overflow ↔
        c.params.timeout c.slack = .error .overflow ∨ ∃ n ∈ nodes, c.OverflowsAt now cut stop n) ∧
      ((c.run now cut stop nodes).ending ≠ .overflow →
        (c.run now cut stop nodes).started = nodes.map (c.startNode now) ∧
        (c.run now cut stop nodes).nodes = nodes.map (c.resolve now cut stop)) := by
  obtain ⟨hover, hnodes⟩ := c.progress_spec now cut stop nodes
  have hrun := c.runs now cut stop nodes
  generalize c.run now cut stop nodes = r at hrun ⊢
  cases hrun with
  | refused hn hflight => exact absurd ((hidle _ hn).symm.trans hflight) (by decide)
  | endless htimeout => exact ⟨by simp [htimeout], by simp⟩
  | unlimited _ _ hdeadline hn =>
    obtain ⟨n, hn, hphase⟩ := hn
    exact ⟨by simpa using .inr ⟨n, hn, hphase, .inl ⟨_, hdeadline⟩⟩, by simp⟩
  | overflowed hp hrange htime =>
    refine ⟨iff_of_true rfl (.inr ?_), by simp⟩
    by_contra hno
    have hnone := hover.2 fun n hn ho => hno ⟨n, hn, (overflowsAt_iff hrange hn).2 ho⟩
    rw [hp, htime] at hnone
    cases hnone
  | gaveUp hp hrange hnone | done hp hrange hnone =>
    rw [← hp] at hnone ⊢
    refine ⟨iff_of_false (by simp) ?_, fun _ => ⟨rfl, hnodes hnone⟩⟩
    rintro (htimeout | ⟨n, hn, ho⟩)
    · exact hrange.timeout htimeout
    · exact hover.1 hnone n hn ((overflowsAt_iff hrange hn).1 ho)

/-- A campaign stays within the range of instants if its deadline and the grace period after its
stop do. -/
theorem run_in_range {c : Campaign} {now : Nat} {stop deadline : Option Nat} {nodes : List Node}
    (cut : Nat) (hidle : ∀ n ∈ nodes, n.phase.inFlight = false) (hd : c.deadline now = .ok deadline)
    (hgrace : ∀ s ∈ stop, ∃ moment, deadlineAfter s c.grace = .ok moment) :
    (c.run now cut stop nodes).ending ≠ .overflow := by
  intro hover
  rcases (c.run_spec now cut stop hidle).1.1 hover with ht | ⟨n, -, -, ⟨h, hh⟩ | ⟨-, time, hw⟩⟩
  · rw [Campaign.deadline, ht] at hd
    cases hd
  · rw [hd] at hh
    cases hh
  · exact Vigil.watch_in_range (v := c.vigil now cut stop _) hgrace _ time hw

end Campaign

end ProximityLab
