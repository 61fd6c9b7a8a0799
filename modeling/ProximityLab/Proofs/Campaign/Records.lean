import ProximityLab.Proofs.Campaign.Run
import ProximityLab.Proofs.Transcript

/-!
# The records of a campaign's nodes

- **Continuity**: a node that goes through a campaign stays the node it was, at its position, and
  takes in only what can be stored (`Carries`).
- **Outcomes**: a campaign that is done has resolved each node (`resolved_of_done`): the node has an
  outcome and is in its phase (`Node.Resolved`). A node whose start line was not taken has one from
  its start, each other from its vigil.
-/

namespace ProximityLab

/-- The node has left a campaign, with the outcome that its phase stands for. -/
inductive Node.Resolved (n : Node) : Prop where
  | completed (hphase : n.phase = .completed)
      (houtcome : n.record.outcome = some .completed ∨ n.record.outcome = some .stopped)
  | timedOut (hphase : n.phase = .timedOut) (houtcome : n.record.outcome = some .timedOut)
  | failed (cause : String) (hphase : n.phase = .failed)
      (houtcome : n.record.outcome = some (.failed cause))

theorem Node.resolved_finish (lines : List String) (outcome : Outcome) (n : Node) :
    (n.finish lines outcome).Resolved := by
  cases outcome with
  | completed => exact .completed rfl (.inl rfl)
  | stopped => exact .completed rfl (.inr rfl)
  | timedOut => exact .timedOut rfl rfl
  | failed cause => exact .failed cause rfl rfl

namespace Campaign

/-- One record goes on from the other: it is of the same device at the same position, and what was
added is storable. -/
structure Carries (n n' : Node) : Prop where
  node : n'.record.node = n.record.node
  position : n'.record.position = n.record.position
  reported : n.record.Reported → n'.record.Reported

namespace Carries

theorem refl (n : Node) : Carries n n := ⟨rfl, rfl, id⟩

theorem trans {n n' n'' : Node} (h : Carries n n') (h' : Carries n' n'') : Carries n n'' :=
  ⟨h'.node.trans h.node, h'.position.trans h.position, h'.reported ∘ h.reported⟩

theorem withTerminal (n : Node) (t : Terminal) : Carries n (n.withTerminal t) := ⟨rfl, rfl, id⟩

/-- Whatever lines were read, what is found in them is storable. -/
theorem finish (n : Node) (lines : List String) (outcome : Outcome) :
    Carries n (n.finish lines outcome) := by
  refine ⟨rfl, rfl, fun h => ?_⟩
  obtain ⟨hsummaries, htelemetry⟩ := h.absorb (storable_classifyLines lines)
  exact ⟨hsummaries, htelemetry⟩

theorem startNode (c : Campaign) (now : Nat) (n : Node) : Carries n (c.startNode now n) := by
  unfold Campaign.startNode
  split
  · exact ⟨rfl, rfl, id⟩
  · exact (withTerminal n _).trans (finish _ _ _)

theorem settle (n : Node) (r : VigilEnd × Terminal) : Carries n (settle n r) := by
  obtain ⟨_ | _ | _, t⟩ := r
  · exact (withTerminal n t).trans (finish _ _ _)
  · exact withTerminal n t
  · exact withTerminal n t

theorem resolve (c : Campaign) (now cut : Nat) (stop : Option Nat) (n : Node) :
    Carries n (c.resolve now cut stop n) := by
  have hstart := startNode c now n
  unfold Campaign.resolve Vigil.resolve
  split
  · exact hstart.trans (settle _ _)
  · exact hstart

end Carries

/-! ## Outcomes -/

/-- The node has left its campaign. -/
def Left (n : Node) : Prop := n.record.outcome.isSome = true

/-- The vigil ends with an outcome for this node. -/
def Finishes (v : Vigil) (n : Node) : Prop :=
  ∃ lines outcome time, (v.watch n.terminal).1 = .finished lines outcome time

theorem Left.of_resolved {n : Node} (h : n.Resolved) : Left n := by
  unfold Left
  rcases h with ⟨-, houtcome | houtcome⟩ | ⟨-, houtcome⟩ | ⟨_, -, houtcome⟩ <;> rw [houtcome] <;>
    rfl

/-- A node that is not waited for is resolved already. -/
theorem resolved_startNode {c : Campaign} {now : Nat} {n : Node}
    (h : (c.startNode now n).phase ≠ .awaiting) : (c.startNode now n).Resolved := by
  unfold startNode at h ⊢
  split
  · rename_i hs
    simp [hs] at h
  · exact Node.resolved_finish ..

/-- Nobody was given up before, and this node is not given up. -/
theorem awaitNext_finishes {vigil : Option Nat → Vigil} {p : Progress} {s : Started}
    (hover : (awaitNext vigil p s).overflow = none) (hgave : (awaitNext vigil p s).gaveUp = false) :
    p.gaveUp = false ∧ (s.node.phase = .awaiting → Finishes (vigil s.deadline) s.node) := by
  have hp := ((awaitNext_overflow_iff vigil p s).1 hover).1
  have hlimit : p.limit (vigil s.deadline) = vigil s.deadline := by simp [Progress.limit, hp]
  unfold awaitNext Started.awaited at hover hgave
  by_cases hs : s.node.phase = .awaiting
  · simp only [hs, decide_true, if_true, hlimit] at hover hgave
    rcases hw : ((vigil s.deadline).watch s.node.terminal).1 with ⟨lines, outcome, time⟩ | _ | time
    · rw [hw] at hgave
      exact ⟨hgave, fun _ => ⟨lines, outcome, time, hw⟩⟩
    · simp [hw, Progress.note] at hgave
    · simp [hw, Progress.note, hp] at hover
  · simp only [hs, decide_false, Bool.false_eq_true, if_false] at hgave
    exact ⟨hgave, fun h => absurd h hs⟩

/-- When none was given up, all vigils have ended with an outcome. -/
theorem foldl_awaitNext_finishes {vigil : Option Nat → Vigil} {l : List Started} {p : Progress}
    (hover : (l.foldl (awaitNext vigil) p).overflow = none)
    (hgave : (l.foldl (awaitNext vigil) p).gaveUp = false) :
    p.gaveUp = false ∧
      ∀ s ∈ l, s.node.phase = .awaiting → Finishes (vigil s.deadline) s.node := by
  -- the flags of the last step say something about all steps before
  induction l generalizing p with
  | nil => exact ⟨hgave, by simp⟩
  | cons s l ih =>
    have hover' := ((foldl_awaitNext_spec vigil l (awaitNext vigil p s)).1.1 hover).1
    obtain ⟨hgave', hrest⟩ := ih hover hgave
    obtain ⟨hpgave, hs⟩ := awaitNext_finishes hover' hgave'
    exact ⟨hpgave, List.forall_mem_cons.2 ⟨hs, hrest⟩⟩

theorem resolved_resolve {v : Vigil} {c : Campaign} {now : Nat} {n : Node}
    (h : (c.startNode now n).phase = .awaiting → Finishes v (c.startNode now n)) :
    (v.resolve (c.startNode now n)).Resolved := by
  unfold Vigil.resolve
  split
  · rename_i hs
    obtain ⟨lines, outcome, time, hw⟩ := h hs
    rcases hr : v.watch (c.startNode now n).terminal with ⟨e, t⟩
    obtain rfl : e = .finished lines outcome time := by simpa [hr] using hw
    exact Node.resolved_finish ..
  · rename_i hs
    exact resolved_startNode hs

/-- After a campaign that is done each node is resolved. -/
theorem resolved_of_done {c : Campaign} {now cut : Nat} {stop : Option Nat} {nodes : List Node}
    (hdone : (c.run now cut stop nodes).ending = .done) :
    ∀ n ∈ (c.run now cut stop nodes).nodes, n.Resolved := by
  have hrun := c.runs now cut stop nodes
  generalize c.run now cut stop nodes = r at hrun hdone ⊢
  cases hrun with
  | refused | endless | unlimited | overflowed | gaveUp => cases hdone
  | @done p hp hrange hover hgave =>
    subst hp
    obtain ⟨-, hfinishes⟩ := foldl_awaitNext_finishes hover hgave
    rw [(c.progress_spec now cut stop nodes).2 hover]
    intro n hn
    obtain ⟨m, hm, rfl⟩ := List.mem_map.1 hn
    exact resolved_resolve (hfinishes _ (List.mem_map_of_mem hm))

/-- After a campaign that is done each node has an outcome. -/
theorem outcome_of_done {c : Campaign} {now cut : Nat} {stop : Option Nat} {nodes : List Node}
    (hdone : (c.run now cut stop nodes).ending = .done) :
    ∀ n ∈ (c.run now cut stop nodes).nodes, Left n :=
  fun n hn => .of_resolved (resolved_of_done hdone n hn)

end Campaign

end ProximityLab
