import ProximityLab.Experiment.Run
import ProximityLab.Proofs.Campaign.Run
import ProximityLab.Proofs.Lists
import ProximityLab.Proofs.Session.Talk

/-!
# Synchronising the devices

What `Experiment.syncAll` does to the nodes of an experiment: each comes back at its place with a
terminal that follows the one it had, wherever the synchronisation broke off (`uses_syncAll`).
-/

namespace ProximityLab

open Campaign (Uses)

/-! ## The nodes -/

theorem Node.setUid_terminal {uid : String} {n n' : Node} (h : n.setUid uid = .ok n') :
    n'.terminal = n.terminal := by
  obtain ⟨-, -, rfl⟩ := Node.setUid_eq_ok_iff.1 h
  rfl

namespace Experiment

/-- The identifier of a device is asked for over its terminal; nothing else happens to that. -/
theorem identify_station (limit : TimeSpan) (now horizon : Nat) (n : Node) :
    let s := ((Talk.uid limit).run.run ⟨now, horizon, n.terminal⟩).2
    (identify limit now horizon n).2.1 = s.now ∧
      (identify limit now horizon n).2.2.terminal = s.terminal := by
  unfold identify
  generalize (Talk.uid limit).run.run ⟨now, horizon, n.terminal⟩ = r
  obtain ⟨result, s⟩ := r
  dsimp only
  split
  · exact ⟨rfl, rfl⟩
  · split
    · rename_i h
      exact ⟨rfl, Node.setUid_terminal h⟩
    · exact ⟨rfl, rfl⟩
  · split <;> exact ⟨rfl, rfl⟩

theorem adjust_station (limit : TimeSpan) (time : DateTime) (now horizon : Nat) (n : Node) :
    let s := ((Talk.setTime limit time).run.run ⟨now, horizon, n.terminal⟩).2
    (adjust limit time now horizon n).2.1 = s.now ∧
      (adjust limit time now horizon n).2.2.terminal = s.terminal := by
  unfold adjust
  generalize (Talk.setTime limit time).run.run ⟨now, horizon, n.terminal⟩ = r
  obtain ⟨result, s⟩ := r
  dsimp only
  split
  · exact ⟨rfl, rfl⟩
  · split <;> exact ⟨rfl, rfl⟩

theorem uses_identify (limit : TimeSpan) (now horizon : Nat) (n : Node) :
    Uses n (identify limit now horizon n).2.2 := by
  unfold Uses
  rw [(identify_station limit now horizon n).2]
  exact Talk.keeps_uid limit ⟨now, horizon, n.terminal⟩

theorem uses_adjust (limit : TimeSpan) (time : DateTime) (now horizon : Nat) (n : Node) :
    Uses n (adjust limit time now horizon n).2.2 := by
  unfold Uses
  rw [(adjust_station limit time now horizon n).2]
  exact Talk.keeps_command limit (setTimeLine time) ⟨now, horizon, n.terminal⟩

/-- Wherever the synchronisation breaks off, nothing was done with a node, it was only asked for its
identifier, or its clock was set after that. A relation that covers these cases relates all nodes to
what becomes of them. -/
theorem forall₂_syncAll {R : Node → Node → Prop} {limit : TimeSpan} {o : Circumstances}
    (hnone : ∀ n, R n n) (hfirst : ∀ now n, R n (identify limit now o.horizon n).2.2)
    (hboth : ∀ now n now' time,
      R n (adjust limit time now' o.horizon (identify limit now o.horizon n).2.2).2.2)
    (now : Nat) (nodes : List Node) : List.Forall₂ R nodes (syncAll limit o now nodes).2.2 := by
  induction nodes generalizing now with
  | nil => exact .nil
  | cons n ns ih =>
    have hsame : List.Forall₂ R ns ns := List.forall₂_same.2 fun m _ => hnone m
    have hid := hfirst now n
    have hadj := hboth now n
    unfold syncAll
    split <;> rename_i h <;> rw [h] at hid hadj
    · exact .cons hid hsame
    · rename_i now' n'
      have hn := hadj now' (o.clock now')
      split <;> rename_i h' <;> rw [h'] at hn
      · exact .cons hn hsame
      · exact .cons hn (ih _)

/-- Each node has only been used. -/
theorem uses_syncAll (limit : TimeSpan) (o : Circumstances) (now : Nat) (nodes : List Node) :
    List.Forall₂ Uses nodes (syncAll limit o now nodes).2.2 :=
  forall₂_syncAll (fun n => .refl n.terminal) (fun now n => uses_identify limit now o.horizon n)
    (fun now n now' time => (uses_identify limit now o.horizon n).trans
      (uses_adjust limit time now' o.horizon _))
    now nodes

end Experiment

end ProximityLab
