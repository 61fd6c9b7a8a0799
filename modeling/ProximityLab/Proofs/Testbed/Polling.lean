import ProximityLab.Testbed.Reservation
import Mathlib.Algebra.Order.Floor.Div

/-!
# When a lease asks for the state of a reservation

A lease asks at once and then at regular intervals, until the reservation no longer waits or has
waited for too long. Intervals and limits are counted in whole milliseconds here, questions from
zero, and the testbed answers them by a sequence of states (`Lease.Reports`).

- **One question** (`Lease.pollWithin_pending`, `Lease.pollWithin_decided`,
  `Lease.pollWithin_late`): what comes of it depends on the answer, and on the limit while the
  reservation waits.
- **All questions** (`Lease.waitRunning_polls`): the first answer that decides ends the waiting,
  unless question `w ⌈/⌉ p`, the first one that is not before the limit `w`, comes earlier.
-/

namespace ProximityLab.Testbed

/-- The first answer that does not leave a reservation waiting. -/
def Decides (states : Nat → String) (i : Nat) : Prop :=
  states i ∉ pendingStates ∧ ∀ j < i, states j ∈ pendingStates

namespace Lease

/-- The lease after some questions for the state of a reservation. -/
def asked (id questions : Nat) (l : Lease) : Lease :=
  { l with calls := l.calls ++ List.replicate questions (.state id) }

/-- The testbed answers the questions for the state of a reservation with these states. -/
def Reports (l : Lease) (id : Nat) (states : Nat → String) : Prop :=
  ∀ k, l.api.state (l.asked id k).calls id = .ok (states k)

/-- Waiting from `now` on asks then and every `p` milliseconds, and ends with the answer to question
`last`. Whoever looks earlier, at the horizon, finds the questions that were asked by then. -/
def Polls (l : Lease) (id now p last : Nat) (result : Waited Unit) : Prop :=
  ∀ horizon, l.waitRunning id now horizon =
    if last * p ≤ horizon - now then (result, now + last * p, l.asked id (last + 1))
    else (.hung, horizon, l.asked id ((horizon - now) / p + 1))

theorem ne_running_of_pending {state : String} (h : state ∈ pendingStates) : state ≠ "Running" := by
  rintro rfl
  revert h
  decide

theorem log_asked (l : Lease) (id k : Nat) :
    (l.asked id k).log (.state id) = l.asked id (k + 1) := by
  simp [asked, log, List.replicate_succ']

section Questions

variable {l : Lease} {id p w : Nat} {states : Nat → String} (hpoll : l.poll = .ofMillis p)
  (hlimit : l.limit = .ofMillis w) (hstates : l.Reports id states)

/-! ## One question -/

include hstates in
/-- An answer that decides is the result. -/
theorem pollWithin_decided {k : Nat} (hk : states k ∉ pendingStates)
    (start horizon fuel now : Nat) :
    pollWithin id start horizon (fuel + 1) now (l.asked id k) =
      (if states k = "Running" then .value () else .failed (.unexpectedState id (states k)), now,
        l.asked id (k + 1)) := by
  rw [pollWithin, show (l.asked id k).api.state _ id = _ from hstates k, log_asked]
  by_cases hrunning : states k = "Running"
  · simp only [hrunning, if_true]
  · simp [hrunning, hk]

include hlimit hstates in
/-- A reservation that waits when the limit is reached has waited for too long. -/
theorem pollWithin_late {k : Nat} (hk : states k ∈ pendingStates) (hlate : w ≤ k * p)
    (start horizon fuel : Nat) :
    pollWithin id start horizon (fuel + 1) (start + k * p) (l.asked id k) =
      (.failed (.waitTimeout id (.ofMillis (k * p))), start + k * p, l.asked id (k + 1)) := by
  have hwaited : (l.asked id (k + 1)).limit.nanos ≤ (TimeSpan.ofMillis (k * p)).nanos := by
    rw [show (l.asked id (k + 1)).limit = _ from hlimit]
    exact Nat.mul_le_mul_right _ hlate
  rw [pollWithin, show (l.asked id k).api.state _ id = _ from hstates k, log_asked]
  simp only [ne_running_of_pending hk, if_false, List.contains_iff_mem.2 hk, Bool.not_true,
    Bool.false_eq_true, Nat.add_sub_cancel_left, hwaited, if_true]

include hpoll hlimit hstates in
/-- A reservation that waits before the limit is asked about again, an interval later. -/
theorem pollWithin_pending {k : Nat} (hk : states k ∈ pendingStates) (hearly : k * p < w)
    (start horizon fuel : Nat) :
    pollWithin id start horizon (fuel + 1) (start + k * p) (l.asked id k) =
      if horizon < start + (k + 1) * p then (.hung, horizon, l.asked id (k + 1))
      else pollWithin id start horizon fuel (start + (k + 1) * p) (l.asked id (k + 1)) := by
  have hwaited : ¬ (l.asked id (k + 1)).limit.nanos ≤ (TimeSpan.ofMillis (k * p)).nanos := by
    rw [show (l.asked id (k + 1)).limit = _ from hlimit]
    simp only [TimeSpan.ofMillis]
    omega
  have hnext : start + k * p + (l.asked id (k + 1)).poll.millisUp = start + (k + 1) * p := by
    rw [show (l.asked id (k + 1)).poll = _ from hpoll]
    simp only [TimeSpan.millisUp, TimeSpan.ofMillis, Nat.succ_mul]
    omega
  rw [pollWithin, show (l.asked id k).api.state _ id = _ from hstates k, log_asked]
  simp only [ne_running_of_pending hk, if_false, List.contains_iff_mem.2 hk, Bool.not_true,
    Bool.false_eq_true, Nat.add_sub_cancel_left, hwaited, hnext]

/-! ## All questions -/

include hpoll hlimit hstates in
/-- The questions before the last one leave the reservation waiting, and the last one ends that. -/
theorem polls_of_last (hp : 0 < p) {last : Nat} {result : Waited Unit} (now : Nat)
    (hpending : ∀ k < last, states k ∈ pendingStates ∧ k * p < w)
    (hlast : ∀ horizon fuel,
      pollWithin id now horizon (fuel + 1) (now + last * p) (l.asked id last) =
      (result, now + last * p, l.asked id (last + 1))) :
    l.Polls id now p last result := by
  intro horizon
  -- the fuel is enough for the questions that are left, as question `k` comes in time
  have hfrom : ∀ left k fuel, k + left = last → k * p ≤ horizon - now →
      (horizon - now) / p + 2 ≤ fuel + k →
        pollWithin id now horizon fuel (now + k * p) (l.asked id k) =
          if last * p ≤ horizon - now then (result, now + last * p, l.asked id (last + 1))
          else (.hung, horizon, l.asked id ((horizon - now) / p + 1)) := by
    intro left
    induction left with
    | zero =>
      intro k fuel hsum hk hfuel
      obtain rfl : k = last := by omega
      have hle := (Nat.le_div_iff_mul_le hp).2 hk
      obtain ⟨fuel, rfl⟩ : ∃ n, fuel = n + 1 := ⟨fuel - 1, by omega⟩
      rw [if_pos hk]
      exact hlast horizon fuel
    | succ left ih =>
      intro k fuel hsum hk hfuel
      have hle := (Nat.le_div_iff_mul_le hp).2 hk
      obtain ⟨fuel, rfl⟩ : ∃ n, fuel = n + 1 := ⟨fuel - 1, by omega⟩
      obtain ⟨hwaits, hearly⟩ := hpending k (by omega)
      have hpos : 0 < (k + 1) * p := Nat.mul_pos (Nat.succ_pos k) hp
      rw [pollWithin_pending hpoll hlimit hstates hwaits hearly]
      by_cases hnext : (k + 1) * p ≤ horizon - now
      · rw [if_neg (by omega)]
        exact ih (k + 1) fuel (by omega) hnext (by omega)
      · have hmul : (k + 1) * p ≤ last * p := Nat.mul_le_mul_right p (by omega)
        have hlt := (Nat.div_lt_iff_lt_mul hp).2 (Nat.lt_of_not_le hnext)
        rw [if_pos (by omega), if_neg (by omega), show (horizon - now) / p = k by omega]
  have hfuel := Nat.div_le_self (horizon - now) p
  have hstart := hfrom last 0 (horizon - now + 2) (by omega) (by omega) (by omega)
  rw [Nat.zero_mul] at hstart
  simpa [waitRunning, asked] using hstart

end Questions

/-- Of the answers up to question `w ⌈/⌉ p`, the first one that decides ends the waiting; without
one, it ends with that question, as a failure. -/
theorem waitRunning_polls {l : Lease} {id p w : Nat} {states : Nat → String} (hp : 0 < p)
    (hpoll : l.poll = .ofMillis p) (hlimit : l.limit = .ofMillis w) (hstates : l.Reports id states)
    (now : Nat) :
    (∀ i, Decides states i → i ≤ w ⌈/⌉ p →
      l.Polls id now p i
      (if states i = "Running" then .value () else .failed (.unexpectedState id (states i)))) ∧
    ((∀ i, Decides states i → w ⌈/⌉ p < i) →
      l.Polls id now p (w ⌈/⌉ p) (.failed (.waitTimeout id (.ofMillis (w ⌈/⌉ p * p))))) := by
  have hbefore : ∀ {k}, k < w ⌈/⌉ p ↔ k * p < w := by
    intro k
    rw [← not_le, ceilDiv_le_iff_le_mul hp, not_le, Nat.mul_comm]
  constructor
  · intro i hi hle
    refine polls_of_last hpoll hlimit hstates hp now (fun k hk => ⟨hi.2 k hk, hbefore.1 (by omega)⟩)
      ?_
    exact fun horizon fuel => pollWithin_decided hstates hi.1 now horizon fuel _
  · intro hnone
    have hwaits : ∀ k ≤ w ⌈/⌉ p, states k ∈ pendingStates := by
      intro k
      induction k using Nat.strong_induction_on with
      | _ k ih =>
        intro hk
        by_contra hdecides
        have := hnone k ⟨hdecides, fun j hj => ih j hj (by omega)⟩
        omega
    have hlate : w ≤ w ⌈/⌉ p * p := Nat.le_of_not_lt fun h => Nat.lt_irrefl _ (hbefore.2 h)
    refine polls_of_last hpoll hlimit hstates hp now (fun k hk => ⟨hwaits k hk.le, hbefore.1 hk⟩) ?_
    exact fun horizon fuel =>
      pollWithin_late hlimit hstates (hwaits _ le_rfl) hlate now horizon fuel

/-- With an interval of 300 ms and a limit of a second, question 4 is the last one. A reservation
that runs then is not late; one that is still launching is. -/
theorem waitRunning_polls_lastQuestion :
    let api (launching : Nat) : TestbedApi :=
      { submit := fun _ _ _ _ => .error .badAnswer
        state := fun calls _ => .ok (if calls.length < launching then "Launching" else "Running")
        nodes := fun _ _ => .error .badAnswer
        positions := fun _ _ => .error .badAnswer
        stop := fun _ _ => .error .badAnswer }
    let lease (launching : Nat) := new (api launching) (.ofMillis 300) (.ofMillis 1000)
    (lease 4).waitRunning 7 50 5000 = (.value (), 1250, (lease 4).asked 7 5) ∧
    (lease 5).waitRunning 7 50 5000 =
      (.failed (.waitTimeout 7 (.ofMillis 1200)), 1250, (lease 5).asked 7 5) ∧
    (lease 5).waitRunning 7 50 700 = (.hung, 700, (lease 5).asked 7 3) := by
  intro api lease
  have hstates : ∀ n, (lease n).Reports 7 fun k => if k < n then "Launching" else "Running" := by
    intro n k
    simp [lease, api, new, asked]
  have hdecides : ∀ n i, Decides (fun k => if k < n then "Launching" else "Running") i → n ≤ i := by
    intro n i hi
    by_contra hlt
    exact hi.1 (by simp [show i < n by omega, pendingStates])
  obtain ⟨hruns, -⟩ := waitRunning_polls (by decide : 0 < 300) rfl rfl (hstates 4) 50
  obtain ⟨-, hlate⟩ := waitRunning_polls (by decide : 0 < 300) rfl rfl (hstates 5) 50
  have hfour := hruns 4 ⟨by decide, by decide⟩ (by decide)
  have hfive := hlate fun i hi => (by decide : 1000 ⌈/⌉ 300 < 5).trans_le (hdecides 5 i hi)
  exact ⟨hfour 5000, hfive 5000, hfive 700⟩

end Lease

end ProximityLab.Testbed
