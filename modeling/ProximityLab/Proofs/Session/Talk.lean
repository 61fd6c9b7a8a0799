import ProximityLab.Proofs.Terminal.Handle
import ProximityLab.Session.Commands

/-!
# Rules for operations on a station

What the parts of a `Talk` do to a station: `run_bind` takes an operation apart, the other `run_*`
lemmas give the primitive operations. `Talk.Relates` says how the station that an operation leaves
is related to the one that it found, however it ends. A relation that reading does not leave
(`Talk.Reading`) holds of all operations that send nothing, and a command is one line between such
operations (`Reading.command`). So every operation of a session hands back a terminal that follows
the one it was given (`keeps_command`).
-/

namespace ProximityLab

namespace Talk

variable {α β : Type}

/-! ## The parts of an operation -/

theorem run_bind (m : Talk α) (f : α → Talk β) (s : Station) :
    (m >>= f).run.run s =
      match m.run.run s with
      | (.ok a, s') => (f a).run.run s'
      | (.error h, s') => (.error h, s') := by
  simp only [bind, ExceptT.bind, ExceptT.mk, ExceptT.run, StateT.run, StateT.bind]
  rcases m s with ⟨_ | a, s'⟩ <;> rfl

/-- An operation whose result is only read differently. -/
theorem run_map (m : Talk α) (f : α → β) (s : Station) :
    (m >>= fun a => pure (f a)).run.run s = ((m.run.run s).1.map f, (m.run.run s).2) := by
  rw [run_bind]
  rcases m.run.run s with ⟨_ | _, s'⟩ <;> rfl

theorem run_pure (a : α) (s : Station) : (pure a : Talk α).run.run s = (.ok a, s) := rfl

theorem run_get (s : Station) : (get : Talk Station).run.run s = (.ok s, s) := rfl

theorem run_set (s s' : Station) : (set s' : Talk Unit).run.run s = (.ok (), s') := rfl

theorem run_await (deadline : Option Nat) (s : Station) :
    (await deadline).run.run s =
      let r := s.terminal.read s.now s.horizon deadline
      (.ok r.1, { s with now := r.2.1, terminal := r.2.2 }) := rfl

theorem run_dispatch (line : String) (s : Station) :
    (dispatch line).run.run s =
      ((s.terminal.send s.now line).1.mapError .channel,
        { s with terminal := (s.terminal.send s.now line).2 }) := by
  rw [dispatch, run_bind, run_get]
  dsimp only
  rw [run_bind, run_set]
  rcases s.terminal.send s.now line with ⟨_ | _, t⟩ <;> rfl

theorem run_deadlineIn (d : TimeSpan) (s : Station) :
    (deadlineIn d).run.run s = (deadlineAfter s.now d, s) := by
  have hn : now.run.run s = (.ok s.now, s) := rfl
  unfold deadlineIn
  rw [run_bind, hn]
  cases h : deadlineAfter s.now d <;> simp only [h] <;> rfl

/-! ## What an operation does to the station -/

/-- However the operation ends, the station that it leaves is related to the one that it found. -/
def Relates (R : Station → Station → Prop) (m : Talk α) : Prop :=
  ∀ s : Station, R s (m.run.run s).2

section Relates

variable {R S T : Station → Station → Prop}

/-- Two operations in a row, the second of which may not come about. -/
theorem Relates.bind {m : Talk α} {f : α → Talk β} (hm : Relates R m) (hf : ∀ a, Relates S (f a))
    (hcut : ∀ {s s'}, R s s' → T s s') (hboth : ∀ {s s' s''}, R s s' → S s' s'' → T s s'') :
    Relates T (m >>= f) := by
  intro s
  have h := hm s
  rw [run_bind]
  split
  · rename_i a s' hr
    rw [hr] at h
    exact hboth h (hf a s')
  · rename_i e s' hr
    rw [hr] at h
    exact hcut h

/-- What reading from the terminal of a station makes of it, however often it is read. -/
structure Reading (R : Station → Station → Prop) : Prop where
  refl : ∀ s, R s s
  trans : ∀ {s s' s''}, R s s' → R s' s'' → R s s''
  read : ∀ deadline (s : Station), R s
    { s with
      now := (s.terminal.read s.now s.horizon deadline).2.1
      terminal := (s.terminal.read s.now s.horizon deadline).2.2 }

namespace Reading

variable (hR : Reading R)
include hR

theorem pure (a : α) : Relates R (Pure.pure a : Talk α) := fun s => hR.refl s

theorem halt (h : Halt) : Relates R (Talk.halt h : Talk α) := fun s => hR.refl s

theorem bind {m : Talk α} {f : α → Talk β} (hm : Relates R m) (hf : ∀ a, Relates R (f a)) :
    Relates R (m >>= f) := Relates.bind hm hf id hR.trans

theorem get : Relates R (get : Talk Station) := fun s => hR.refl s

theorem await (deadline : Option Nat) : Relates R (await deadline) := hR.read deadline

theorem step (deadline : Option Nat) : Relates R (step deadline) := by
  refine hR.bind (hR.await deadline) fun a => ?_
  split
  · exact hR.pure _
  · exact hR.pure _
  · exact hR.halt _
  · exact hR.pure _
  · exact hR.halt _

theorem captureWithin (deadline : Option Nat) (fuel : Nat) :
    Relates R (captureWithin deadline fuel) := by
  induction fuel with
  | zero => exact hR.pure _
  | succ fuel ih =>
    refine hR.bind (hR.step deadline) fun a => ?_
    cases a with
    | line text => exact hR.bind ih fun _ => hR.pure _
    | prompt => exact hR.pure _
    | closed => exact hR.pure _
    | deadline => exact hR.pure _

theorem discardWithin (moment fuel : Nat) : Relates R (discardWithin moment fuel) := by
  induction fuel with
  | zero => exact hR.pure _
  | succ fuel ih =>
    refine hR.bind (hR.await (some moment)) fun a => ?_
    split
    · exact hR.bind ih fun _ => hR.pure _
    · exact hR.halt _
    · exact hR.pure _

theorem deadlineIn (d : TimeSpan) : Relates R (deadlineIn d) := fun s => by
  rw [run_deadlineIn]
  exact hR.refl s

/-- A command reads, sends its line and reads again. -/
theorem command (limit : TimeSpan) {line : String}
    (hsend : ∀ s, S s { s with terminal := (s.terminal.send s.now line).2 })
    (hearly : ∀ {s s'}, R s s' → S s s') (hbefore : ∀ {s s' s''}, R s s' → S s' s'' → S s s'')
    (hafter : ∀ {s s' s''}, S s s' → R s' s'' → S s s'') : Relates S (command limit line) := by
  have hdispatch : Relates S (dispatch line) := fun s => by
    rw [run_dispatch]
    exact hsend s
  refine Relates.bind (hR.bind hR.get fun s => hR.discardWithin _ _) (fun _ => ?_) hearly hbefore
  refine hdispatch.bind (fun _ => ?_) id hafter
  exact hR.bind (hR.deadlineIn limit) fun moment => hR.bind hR.get fun s => hR.captureWithin _ _

end Reading

end Relates

/-- However the operation ends, the terminal follows the one that it was given. -/
def Keeps (m : Talk α) : Prop := ∀ s : Station, s.terminal.Follows (m.run.run s).2.terminal

theorem reading_follows : Reading fun s s' => s.terminal.Follows s'.terminal where
  refl s := .refl s.terminal
  trans := .trans
  read deadline s := Terminal.follows_read s.now s.horizon deadline s.terminal

theorem keeps_command (limit : TimeSpan) (line : String) : Keeps (command limit line) :=
  reading_follows.command limit (fun s => s.terminal.follows_send s.now line) id .trans .trans

theorem keeps_uid (limit : TimeSpan) : Keeps (uid limit) :=
  reading_follows.bind (keeps_command limit uidLine) fun _ => reading_follows.pure _

end Talk

end ProximityLab
