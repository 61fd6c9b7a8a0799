import ProximityLab.Environment.Source
import ProximityLab.Proofs.Testbed.Reservation

/-!
# The reservations of a lease

Devices are reserved and released through a lease, in any order in which nothing is reserved while a
reservation is held (`Lease.Orderly`). The calls to the testbed say which reservations were made
(`Lease.made`) and which were stopped (`Lease.stopped`).

- **One action**: reserving holds what it makes and stops nothing (`Lease.reserve_made`); releasing
  stops what is held (`Lease.release_eq`).
- **All actions** (`Lease.reservations_history`): each reservation was stopped once, in the order in
  which they were made, but for the one that is held: it was made since the last release.
-/

namespace ProximityLab.Testbed

/-! ## Calls -/

/-- The reservation that a call makes, if these calls were made before. -/
def TestbedApi.made? (api : TestbedApi) (before : List ApiCall) : ApiCall → Option Nat
  | .submit name minutes asked =>
    match api.submit before name minutes asked with
    | .ok id => some id
    | .error _ => none
  | _ => none

/-- The reservations that calls make, the first one first, if these calls were made before. -/
def TestbedApi.made (api : TestbedApi) : List ApiCall → List ApiCall → List Nat
  | _, [] => []
  | before, call :: calls => (api.made? before call).toList ++ api.made (before ++ [call]) calls

/-- The reservation that a call is to stop. -/
def ApiCall.stops? : ApiCall → Option Nat
  | .stop id => some id
  | _ => none

theorem TestbedApi.made_append (api : TestbedApi) (before calls more : List ApiCall) :
    api.made before (calls ++ more) = api.made before calls ++ api.made (before ++ calls) more := by
  induction calls generalizing before with
  | nil => simp [made]
  | cons call calls ih => simp [made, ih]

/-- Questions about a reservation make none and stop none. -/
theorem made_of_queries (api : TestbedApi) {id : Nat} (before : List ApiCall)
    {queries : List ApiCall} (h : ∀ call ∈ queries, call.IsQuery id) :
    api.made before queries = [] ∧ queries.filterMap ApiCall.stops? = [] := by
  induction queries generalizing before with
  | nil => exact ⟨rfl, rfl⟩
  | cons call queries ih =>
    obtain ⟨hcall, hqueries⟩ := List.forall_mem_cons.1 h
    obtain ⟨hmade, hstops⟩ := ih (before ++ [call]) hqueries
    obtain rfl | rfl | rfl := hcall <;> exact ⟨hmade, hstops⟩

namespace Lease

/-- The reservations that were made, the first one first. -/
def made (l : Lease) : List Nat := l.api.made [] l.calls

/-- The reservations that were to be stopped, the first one first. -/
def stopped (l : Lease) : List Nat := l.calls.filterMap ApiCall.stops?

/-! ## One action -/

/-- A submission and questions make the reservation that is submitted, if it is, and stop none. -/
theorem made_submit (l : Lease) {id : Nat} (name : String) (minutes : Nat) (asked : List Resource)
    {queries : List ApiCall} (hqueries : ∀ call ∈ queries, call.IsQuery id) :
    l.api.made [] (l.calls ++ .submit name minutes asked :: queries) =
        l.made ++ (l.api.made? l.calls (.submit name minutes asked)).toList ∧
      (l.calls ++ .submit name minutes asked :: queries).filterMap ApiCall.stops? = l.stopped := by
  obtain ⟨hmade, hstops⟩ := made_of_queries l.api (l.calls ++ [.submit name minutes asked]) hqueries
  constructor
  · rw [l.api.made_append, List.nil_append, TestbedApi.made, hmade, List.append_nil, made]
  · rw [List.filterMap_append, List.filterMap_cons_none rfl, hstops, List.append_nil, stopped]

/-- What is held after reserving was made by it, and nothing else was. -/
theorem reserve_made {l : Lease} (h : l.held = none) (requests : List String) (name site : String)
    (minutes now horizon : Nat) :
    (l.reserve requests name site minutes now horizon).2.2.made =
        l.made ++ (l.reserve requests name site minutes now horizon).2.2.held.toList ∧
      (l.reserve requests name site minutes now horizon).2.2.stopped = l.stopped := by
  have hreserving := l.reserving requests name site minutes now horizon
  generalize (l.reserve requests name site minutes now horizon).2.2 = l' at hreserving ⊢
  generalize (l.reserve requests name site minutes now horizon).1 = w at hreserving
  have hsubmitted : ∀ {asked : List Resource} {id : Nat} {queries : List ApiCall},
      l.api.submit l.calls name minutes asked = .ok id → (∀ call ∈ queries, call.IsQuery id) →
      l.api.made [] (l.calls ++ .submit name minutes asked :: queries) = l.made ++ [id] ∧
        (l.calls ++ .submit name minutes asked :: queries).filterMap ApiCall.stops? =
        l.stopped := by
    intro asked id queries hsubmit hqueries
    have hmade := l.made_submit name minutes asked hqueries
    rwa [TestbedApi.made?, hsubmit] at hmade
  cases hreserving with
  | invalid =>
    -- no call is made, and nothing was held before
    exact ⟨by rw [h, Option.toList_none, List.append_nil], rfl⟩
  | @refused _ asked _ _ hsubmit =>
    have hmade := l.made_submit name minutes asked (List.forall_mem_nil (ApiCall.IsQuery 0))
    rw [TestbedApi.made?, hsubmit, ← h] at hmade
    exact hmade
  | lost _ hsubmit hqueries => exact hsubmitted hsubmit hqueries
  | running _ hsubmit hpolls =>
    refine hsubmitted hsubmit
      (List.forall_mem_append.2 ⟨fun call hcall => .inl (hpolls call hcall), ?_⟩)
    simp [ApiCall.IsQuery]

/-- Releasing stops what is held, and holds nothing then. -/
theorem release_eq (l : Lease) :
    l.release.2 = { l with
      held := none, calls := l.calls ++ (l.held.map ApiCall.stop).toList } := by
  obtain ⟨api, calls, held, poll, limit⟩ := l
  cases held with
  | none => rw [Option.map_none, Option.toList_none, List.append_nil, release]
  | some id => rfl

theorem release_made (l : Lease) :
    l.release.2.made = l.made ∧ l.release.2.stopped = l.stopped ++ l.held.toList := by
  rw [release_eq, made, stopped, l.api.made_append, List.filterMap_append]
  cases l.held with
  | none => exact ⟨List.append_nil _, rfl⟩
  | some id => exact ⟨List.append_nil _, rfl⟩

/-! ## All actions -/

/-- Something that is done with a lease. -/
inductive Action where
  | reserve (spec : ReservationSpec) (now horizon : Nat)
  | release

/-- The lease after an action. Only what a specification asks of the testbed is reserved through
it. -/
def Action.perform (l : Lease) : Action → Lease
  | .reserve (.testbed requests name site minutes) now horizon =>
    (l.reserve requests name site minutes now horizon).2.2
  | .reserve (.file _) _ _ => l
  | .release => l.release.2

/-- The lease after some actions. -/
def after (l : Lease) (actions : List Action) : Lease := actions.foldl Action.perform l

/-- Nothing is reserved while a reservation is held. -/
def Orderly (l : Lease) : List Action → Prop
  | [] => True
  | a :: actions => (a ≠ .release → l.held = none) ∧ (a.perform l).Orderly actions

theorem orderly_append {l : Lease} {before actions : List Action} :
    l.Orderly (before ++ actions) ↔ l.Orderly before ∧ (l.after before).Orderly actions := by
  induction before generalizing l with
  | nil => simp [Orderly, after]
  | cons a before ih => simp [Orderly, after, ih, and_assoc]

theorem after_append (l : Lease) (before actions : List Action) :
    l.after (before ++ actions) = (l.after before).after actions := List.foldl_append

/-- What is held after an action other than a release was made by it, and it stops nothing. -/
theorem perform_made {l : Lease} (h : l.held = none) {a : Action} (ha : a ≠ .release) :
    (a.perform l).made = l.made ++ (a.perform l).held.toList ∧
      (a.perform l).stopped = l.stopped := by
  cases a with
  | release => exact absurd rfl ha
  | reserve spec now horizon =>
    cases spec with
    | testbed requests name site minutes =>
      exact reserve_made h requests name site minutes now horizon
    | file path => exact ⟨by rw [Action.perform, h, Option.toList_none, List.append_nil], rfl⟩

/-- Each reservation was stopped once, in the order in which they were made, but for the one that is
held. -/
def Balanced (l : Lease) : Prop := l.made = l.stopped ++ l.held.toList

theorem Balanced.perform {l : Lease} (h : l.Balanced) {a : Action}
    (ha : a ≠ .release → l.held = none) :
    (a.perform l).Balanced := by
  unfold Balanced at h ⊢
  cases a with
  | release =>
    obtain ⟨hmade, hstopped⟩ := l.release_made
    have hheld : l.release.2.held = none := by rw [release_eq]
    rw [Action.perform, hmade, hstopped, hheld, Option.toList_none, List.append_nil, h]
  | reserve spec now horizon =>
    have hheld := ha nofun
    obtain ⟨hmade, hstopped⟩ := perform_made hheld (a := .reserve spec now horizon) nofun
    rw [hheld, Option.toList_none, List.append_nil] at h
    rw [hmade, hstopped, h]

theorem Balanced.after {l : Lease} {actions : List Action} (h : l.Balanced)
    (horderly : l.Orderly actions) :
    (l.after actions).Balanced := by
  induction actions generalizing l with
  | nil => exact h
  | cons a actions ih => exact ih (h.perform horderly.1) horderly.2

/-- Until the next release, what is held is what was made. -/
theorem made_after {l : Lease} {base : List Nat} {actions : List Action}
    (h : l.made = base ++ l.held.toList) (horderly : l.Orderly actions)
    (hopen : .release ∉ actions) :
    (l.after actions).made = base ++ (l.after actions).held.toList := by
  induction actions generalizing l with
  | nil => exact h
  | cons a actions ih =>
    have ha : a ≠ .release := (List.ne_of_not_mem_cons hopen).symm
    have hheld := horderly.1 ha
    rw [hheld, Option.toList_none, List.append_nil] at h
    refine ih ?_ horderly.2 (List.not_mem_of_not_mem_cons hopen)
    rw [(perform_made hheld ha).1, h]

/-- As long as nothing is reserved while a reservation is held, each reservation is stopped once,
but for the one that is held, and nothing else is stopped. What is held was made since the last
release. A release stops what is held, and calls nothing if nothing is held; nothing is held
then. -/
theorem reservations_history (api : TestbedApi) (poll limit : TimeSpan) (actions : List Action)
    (h : (new api poll limit).Orderly actions) :
    let l := (new api poll limit).after actions
    l.made = l.stopped ++ l.held.toList ∧
    (∀ before recent, actions = before ++ recent → .release ∉ recent →
      (before = [] ∨ ∃ earlier, before = earlier ++ [.release]) →
      l.made = ((new api poll limit).after before).made ++ l.held.toList) ∧
    l.release.2 = { l with held := none, calls := l.calls ++ (l.held.map ApiCall.stop).toList } ∧
    l.release.2.stopped = l.made := by
  intro l
  have hbalanced : l.Balanced := Balanced.after (l := new api poll limit) rfl h
  refine ⟨hbalanced, ?_, l.release_eq, ?_⟩
  · intro before recent hactions hopen hbefore
    have hnone : ((new api poll limit).after before).held = none := by
      obtain rfl | ⟨earlier, rfl⟩ := hbefore
      · rfl
      · rw [after_append]
        exact congrArg held (((new api poll limit).after earlier).release_eq)
    rw [hactions] at h
    have hmade :=
      made_after (by rw [hnone, Option.toList_none, List.append_nil]) (orderly_append.1 h).2 hopen
    rwa [← after_append, ← hactions] at hmade
  · rw [l.release_made.2]
    exact hbalanced.symm

/-- The state of the first reservation is a failure; a second one runs, and cannot be stopped. -/
theorem reservations_history_failing :
    let api : TestbedApi :=
      { submit := fun calls _ _ _ => .ok calls.length
        state := fun calls _ => .ok (if calls.length = 1 then "Error" else "Running")
        nodes := fun _ _ => .ok []
        positions := fun _ _ => .ok []
        stop := fun _ _ => .error .badAnswer }
    let reserve (site : String) : Action := .reserve (.testbed ["dwm1001"] "exp" site 120) 0 10
    let start := new api (.ofSeconds 1) (.ofSeconds 10)
    let l := start.after [reserve "lille", .release, .release, reserve "paris", reserve "saclay"]
    l.made = [0, 3] ∧ l.stopped = [0] ∧ l.held = some 3 ∧ l.release.2.stopped = [0, 3] := by
  intro api reserve start l
  have horderly : start.Orderly [reserve "lille", .release, .release, reserve "paris",
      reserve "saclay"] :=
    ⟨fun _ => rfl, fun h => absurd rfl h, fun h => absurd rfl h, fun _ => by decide +kernel,
      fun _ => by decide +kernel, trivial⟩
  obtain ⟨hmade, -, -, hstopped⟩ :=
    reservations_history api (.ofSeconds 1) (.ofSeconds 10) _ horderly
  have hstops : l.stopped = [0] := by decide +kernel
  have hheld : l.held = some 3 := by decide +kernel
  have hall : l.made = [0, 3] := by
    refine hmade.trans ?_
    rw [show (start.after _).stopped = [0] from hstops,
      show (start.after _).held = some 3 from hheld]
    rfl
  exact ⟨hall, hstops, hheld, hstopped.trans hall⟩

end Lease

end ProximityLab.Testbed
