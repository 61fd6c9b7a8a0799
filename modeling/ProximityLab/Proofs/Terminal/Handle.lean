import ProximityLab.Terminal.Basic

/-!
# What the use of a terminal keeps

`Terminal.Follows t t'`: the terminal `t'` is `t` after lines were sent to it and output was read
from it. It is the same device behind the same connection, neither closed nor reopened, and no line
that was sent is forgotten. Whoever uses a terminal hands back one that follows it, so the count of
closings is up to those who close.
-/

namespace ProximityLab

/-- A device that answers every line in the same way. -/
def Behaviour.uniform (reply : Reply) (closeFault : Option String) : Behaviour :=
  { banner := [], respond := fun _ _ => reply, closeFault := closeFault, leaves := fun _ => [] }

namespace Terminal

/-- The terminal after some use that does not close it. -/
structure Follows (t t' : Terminal) : Prop where
  behaviour : t'.behaviour = t.behaviour
  closed : t'.closed = t.closed
  closes : t'.closes = t.closes
  trials : t.trials <+: t'.trials

namespace Follows

theorem refl (t : Terminal) : t.Follows t := ⟨rfl, rfl, rfl, List.prefix_refl _⟩

theorem trans {t t' t'' : Terminal} (h : t.Follows t') (h' : t'.Follows t'') : t.Follows t'' :=
  ⟨h'.behaviour.trans h.behaviour, h'.closed.trans h.closed, h'.closes.trans h.closes,
    h.trials.trans h'.trials⟩

/-- Only output was taken from the queue. -/
theorem of_queue (t : Terminal) (queue : List Due) : t.Follows { t with queue := queue } :=
  ⟨rfl, rfl, rfl, List.prefix_refl _⟩

/-- No line that the device has taken is forgotten. -/
theorem sent {t t' : Terminal} (h : t.Follows t') : t.sent <+: t'.sent :=
  (h.trials.filter _).map _

end Follows

/-! ## Sending -/

theorem send_of_refused {t : Terminal} (now : Nat) {line : String} {cause : ChannelError}
    (hopen : t.closed = false) (h : t.behaviour.respond t.attempts line = .refused cause) :
    t.send now line = (.error cause, t.tried now line false) := by
  simp [Terminal.send, hopen, h]

theorem send_of_accepted {t : Terminal} (now : Nat) {line : String} {items : List Timed}
    (hopen : t.closed = false) (h : t.behaviour.respond t.attempts line = .accepted items) :
    t.send now line =
      (.ok (), { t.tried now line true with queue := enqueue now items t.queue }) := by
  simp [Terminal.send, hopen, h]

/-- A line that is taken is remembered. The terminal is open before and after. -/
theorem send_eq_ok {now : Nat} {line : String} {t t' : Terminal}
    (h : t.send now line = (.ok (), t')) :
    t.closed = false ∧ t'.closed = false ∧ t'.trials = t.trials ++ [⟨now, line, true⟩] := by
  unfold Terminal.send at h
  split at h
  · simp at h
  · rename_i hc
    have hopen : t.closed = false := by simpa using hc
    split at h
    · simp at h
    · obtain rfl := (Prod.mk.inj h).2
      exact ⟨hopen, hopen, rfl⟩

/-- A line is remembered with its moment, unless the terminal is closed. -/
theorem trials_send (now : Nat) (line : String) (t : Terminal) :
    ∃ trials, (trials = [] ∨ ∃ taken, trials = [⟨now, line, taken⟩]) ∧
      (t.send now line).2.trials = t.trials ++ trials := by
  unfold send
  split
  · exact ⟨[], .inl rfl, (List.append_nil _).symm⟩
  · split <;> exact ⟨_, .inr ⟨_, rfl⟩, rfl⟩

theorem attempts_append {t t' : Terminal} {trials : List Trial}
    (h : t'.trials = t.trials ++ trials) :
    t'.attempts = t.attempts ++ trials.map (·.line) := by
  rw [attempts, attempts, h, List.map_append]

theorem follows_send (now : Nat) (line : String) (t : Terminal) :
    t.Follows (t.send now line).2 := by
  unfold send
  split
  · exact .refl t
  · split
    · exact ⟨rfl, rfl, rfl, List.prefix_append _ _⟩
    · exact ⟨rfl, rfl, rfl, List.prefix_append _ _⟩

theorem follows_read (now horizon : Nat) (deadline : Option Nat) (t : Terminal) :
    t.Follows (t.read now horizon deadline).2.2 := by
  unfold read
  split
  · exact .refl t
  · exact .of_queue t _

end Terminal

end ProximityLab
