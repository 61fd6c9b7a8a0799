import ProximityLab.Proofs.Campaign.Run
import Mathlib.Logic.Function.Iterate

/-!
# Campaigns as concurrent waits

The wait for one node, taken apart into rounds: in each round a node reads one item, sees the stop
signal, or runs out of time, whichever comes first (`Stage.round`). In a campaign the rounds of the
nodes are interleaved in any order (`interleave`).

- **One node** (`Stage.leads_resolve`): repeated rounds lead to what `Vigil.watch` computes.
- **All nodes** (`interleave_getElem?`): a schedule gives each node as many rounds as it mentions
  the node, whatever the others do in between.
-/

namespace ProximityLab

/-- A wait on its way: the vigil from the present moment on (`vigil.start`), what was read so far
and whether the stop line was sent. -/
structure Watch where
  vigil : Vigil
  lines : List String
  stopping : Bool
  terminal : Terminal

/-- Where a node stands in a campaign that was started. -/
inductive Stage where
  | waiting (n : Node) (w : Watch)
  | left (n : Node)

namespace Watch

/-- The item that can be read next, its moment, and the terminal without it. -/
def next? (w : Watch) : Option (Output × Nat × Terminal) :=
  if w.terminal.closed then some (.eof, w.vigil.start, w.terminal)
  else
    match w.terminal.queue with
    | [] => none
    | d :: queue =>
      some (d.output, max w.vigil.start d.time,
        { w.terminal with queue := if d.output = .eof then d :: queue else queue })

/-- The item comes in time and before the stop. -/
def admits (w : Watch) (time : Nat) : Bool :=
  w.vigil.admits w.vigil.deadline time && w.vigil.beforeStop time

/-- The item that is read next, if there is one in time. -/
def arrival? (w : Watch) : Option (Output × Nat × Terminal) := w.next?.filter (w.admits ·.2.1)

/-- The watch after lines were read up to a moment. -/
def read (w : Watch) (time : Nat) (lines : List String) (queue : List Due) : Watch :=
  { w with
    vigil := { w.vigil with start := time }
    lines := w.lines ++ lines
    terminal := { w.terminal with queue := queue } }

/-- The watch after the stop line was sent at the moment `s`. -/
def stopped (w : Watch) (s deadline : Nat) (t : Terminal) : Watch :=
  { w with
    vigil := { w.vigil with start := s, stop := none, deadline := some deadline }
    stopping := true
    terminal := t }

end Watch

namespace Stage

/-- One round of a node's wait. -/
def round : Stage → Stage
  | left n => left n
  | waiting n w =>
    match w.arrival? with
    | some (o, time, t) =>
      match o.ending? with
      | some e => left (Campaign.settle n (.finished w.lines (e.outcome w.stopping) time, t))
      | none =>
        waiting n { w with
          vigil := { w.vigil with start := time }
          lines := w.lines ++ o.line?.toList
          terminal := t }
    | none =>
      match w.vigil.stopsAt with
      | some s =>
        match w.terminal.send s stopLine with
        | (.error cause, t) =>
          left (Campaign.settle n (.finished w.lines (.failed cause.message) s, t))
        | (.ok (), t) =>
          match deadlineAfter s w.vigil.grace with
          | .error _ => left (Campaign.settle n (.overflow s, t))
          | .ok moment => waiting n (w.stopped s (earlier w.vigil.deadline moment) t)
      | none => left (Campaign.settle n (w.vigil.lapse w.vigil.deadline w.lines, w.terminal))

@[simp] theorem iterate_round_left (k : Nat) (n : Node) : round^[k] (left n) = left n :=
  Function.iterate_fixed rfl k

/-- Some rounds lead from one stage to the other. -/
def Leads (s s' : Stage) : Prop := ∃ k, round^[k] s = s'

theorem Leads.refl (s : Stage) : Leads s s := ⟨0, rfl⟩

theorem Leads.head {s s' : Stage} (h : Leads (round s) s') : Leads s s' := by
  obtain ⟨k, hk⟩ := h
  exact ⟨k + 1, hk⟩

theorem Leads.trans {s s' s'' : Stage} (h : Leads s s') (h' : Leads s' s'') : Leads s s'' := by
  obtain ⟨k, rfl⟩ := h
  obtain ⟨l, rfl⟩ := h'
  exact ⟨l + k, Function.iterate_add_apply _ _ _ _⟩

/-! ## Rounds that read -/

theorem round_of_ending (n : Node) {w : Watch} {o : Output} {time : Nat} {t : Terminal} {e : Ending}
    (h : w.arrival? = some (o, time, t)) (he : o.ending? = some e) :
    round (waiting n w) =
      left (Campaign.settle n (.finished w.lines (e.outcome w.stopping) time, t)) := by
  simp [round, h, he]

theorem round_of_line (n : Node) {w : Watch} {d : Due} {queue : List Due}
    (h : w.arrival? = some (d.output, max w.vigil.start d.time, { w.terminal with queue := queue }))
    (he : d.output.ending? = none) :
    round (waiting n w) =
      waiting n (w.read (max w.vigil.start d.time) d.output.line?.toList queue) := by
  simp [round, h, he, Watch.read]

theorem arrival?_cons {w : Watch} {d : Due} {queue : List Due} (hopen : w.terminal.closed = false)
    (hq : w.terminal.queue = d :: queue) :
    w.arrival? =
      if w.admits (max w.vigil.start d.time) then
        some (d.output, max w.vigil.start d.time,
          { w.terminal with queue := if d.output = .eof then d :: queue else queue })
      else none := by
  simp only [Watch.arrival?, Watch.next?, hopen, hq, Bool.false_eq_true, if_false, Option.filter]

theorem read_nil (w : Watch) : w.read w.vigil.start [] w.terminal.queue = w := by
  simp [Watch.read]

theorem read_read (w : Watch) (time time' : Nat) (lines lines' : List String)
    (queue queue' : List Due) :
    (w.read time lines queue).read time' lines' queue' = w.read time' (lines ++ lines') queue' := by
  simp [Watch.read]

/-- Rounds that only read lead to the ending that is gathered, or to a watch with nothing more to
read in time. -/
theorem leads_gather (n : Node) {w : Watch} (hopen : w.terminal.closed = false) :
    let g := gather w.admits w.vigil.start w.terminal.queue
    (∀ e time, g.ending = some (e, time) →
      Leads (waiting n w) (left (Campaign.settle n
        (.finished (w.lines ++ g.lines) (e.outcome w.stopping) time,
          { w.terminal with queue := g.rest })))) ∧
    (g.ending = none → ∃ time, Leads (waiting n w) (waiting n (w.read time g.lines g.rest)) ∧
      (w.read time g.lines g.rest).arrival? = none) := by
  induction hq : w.terminal.queue generalizing w with
  | nil =>
    refine ⟨fun e time h => by simp [gather] at h, fun _ => ⟨w.vigil.start, ?_, ?_⟩⟩
    · rw [gather, ← hq, read_nil]
      exact .refl _
    · simp [gather, Watch.arrival?, Watch.next?, Watch.read, hopen]
  | cons d queue ih =>
    have harr := arrival?_cons hopen hq
    by_cases hp : w.admits (max w.vigil.start d.time) = true
    · rw [if_pos hp] at harr
      cases he : d.output.ending? with
      | some e =>
        simp only [gather, hp, he, if_true, Option.some.injEq, Prod.mk.injEq, reduceCtorEq,
          false_implies, and_true, List.append_nil]
        rintro e' time ⟨rfl, rfl⟩
        exact .head ((round_of_ending n harr he).symm ▸ .refl _)
      | none =>
        have hne : d.output ≠ .eof := fun h => by simp [h, Output.ending?] at he
        rw [if_neg hne] at harr
        obtain ⟨hend, hnone⟩ :=
          ih (w := w.read (max w.vigil.start d.time) d.output.line?.toList queue) hopen rfl
        simp only [gather, hp, he, if_true]
        refine ⟨fun e time h => .head ?_, fun h => ?_⟩
        · rw [round_of_line n harr he, ← List.append_assoc]
          exact hend e time h
        · obtain ⟨time, hlead, hstuck⟩ := hnone h
          rw [read_read] at hlead hstuck
          exact ⟨time, .head ((round_of_line n harr he).symm ▸ hlead), hstuck⟩
    · rw [if_neg hp] at harr
      simp only [gather, hp, Bool.false_eq_true, if_false]
      refine ⟨fun e time h => by simp at h, fun _ => ⟨w.vigil.start, ?_, ?_⟩⟩ <;>
        rw [← hq, read_nil]
      · exact .refl _
      · exact harr

/-- Rounds that only read, on any terminal. -/
theorem leads_terminal_gather (n : Node) (w : Watch) :
    let g := w.terminal.gather w.admits w.vigil.start
    (∀ e time, g.ending = some (e, time) →
      Leads (waiting n w) (left (Campaign.settle n
        (.finished (w.lines ++ g.lines) (e.outcome w.stopping) time,
          { w.terminal with queue := g.rest })))) ∧
    (g.ending = none → ∃ time, Leads (waiting n w) (waiting n (w.read time g.lines g.rest)) ∧
      (w.read time g.lines g.rest).arrival? = none) := by
  by_cases hc : w.terminal.closed = true
  · have hg : w.terminal.gather w.admits w.vigil.start =
        ⟨[], if w.admits w.vigil.start then some (.eof, w.vigil.start) else none,
          w.terminal.queue⟩ := if_pos hc
    have hnext : w.next? = some (.eof, w.vigil.start, w.terminal) := by simp [Watch.next?, hc]
    rw [hg]
    by_cases hp : w.admits w.vigil.start = true
    · have harr : w.arrival? = some (.eof, w.vigil.start, w.terminal) := by
        simp [Watch.arrival?, hnext, Option.filter, hp]
      simp only [hp, if_true, Option.some.injEq, Prod.mk.injEq, reduceCtorEq, false_implies,
        and_true, List.append_nil]
      rintro e time ⟨rfl, rfl⟩
      exact .head ((round_of_ending n harr rfl).symm ▸ .refl _)
    · have harr : w.arrival? = none := by simp [Watch.arrival?, hnext, Option.filter, hp]
      simp only [hp, Bool.false_eq_true, if_false]
      refine ⟨fun e time h => by simp at h, fun _ => ⟨w.vigil.start, ?_, ?_⟩⟩ <;> rw [read_nil]
      · exact .refl _
      · exact harr
  · have hg : w.terminal.gather w.admits w.vigil.start =
        gather w.admits w.vigil.start w.terminal.queue := if_neg hc
    rw [hg]
    exact leads_gather n (by simpa using hc)

/-! ## The whole wait -/

/-- A node that was sent its start line. If it has taken that, it starts to wait. -/
def start (v : Vigil) (n : Node) : Stage :=
  if n.phase = .awaiting then waiting n ⟨v, [], false, n.terminal⟩ else left n

/-- After the stop line was sent, rounds lead to what `Vigil.watchStopped` computes. -/
theorem leads_stopped (n : Node) {w : Watch} {s moment : Nat} {t : Terminal}
    (hg : deadlineAfter s w.vigil.grace = .ok moment) :
    Leads (waiting n (w.stopped s (earlier w.vigil.deadline moment) t))
      (left (Campaign.settle n (w.vigil.watchStopped s w.lines t))) := by
  have hadmits : (w.stopped s (earlier w.vigil.deadline moment) t).admits =
      w.vigil.admits (some (earlier w.vigil.deadline moment)) := by
    funext time
    simp only [Watch.admits, Watch.stopped, Vigil.beforeStop, Option.all_none, Bool.and_true]
    rfl
  obtain ⟨hend, hnone⟩ :=
    leads_terminal_gather n (w.stopped s (earlier w.vigil.deadline moment) t)
  rw [hadmits] at hend hnone
  unfold Vigil.watchStopped
  rw [hg]
  dsimp only
  split
  · rename_i e time he
    exact hend e time he
  · rename_i he
    obtain ⟨time, hlead, hstuck⟩ := hnone he
    refine hlead.trans (.head ?_)
    simp only [round, hstuck]
    exact .refl _

/-- With nothing to read in time, the stop line is sent or the time runs out. -/
theorem leads_of_arrival?_none (n : Node) {w : Watch} (h : w.arrival? = none) :
    Leads (waiting n w) (left (Campaign.settle n
      (match w.vigil.stopsAt with
      | some s =>
        match w.terminal.send s stopLine with
        | (.error cause, t) => (.finished w.lines (.failed cause.message) s, t)
        | (.ok (), t) => w.vigil.watchStopped s w.lines t
      | none => (w.vigil.lapse w.vigil.deadline w.lines, w.terminal)))) := by
  refine .head ?_
  simp only [round, h]
  cases w.vigil.stopsAt with
  | none => exact .refl _
  | some s =>
    dsimp only
    generalize w.terminal.send s stopLine = r
    obtain ⟨_ | _, t⟩ := r
    · exact .refl _
    · cases hg : deadlineAfter s w.vigil.grace with
      | error e =>
        simp only [Vigil.watchStopped, hg]
        exact .refl _
      | ok moment => exact leads_stopped n hg

/-- Rounds lead a node to what its vigil makes of it. -/
theorem leads_resolve (v : Vigil) (n : Node) : Leads (start v n) (left (v.resolve n)) := by
  unfold start Vigil.resolve
  split
  · obtain ⟨hend, hnone⟩ := leads_terminal_gather n ⟨v, [], false, n.terminal⟩
    unfold Vigil.watch
    dsimp only
    split
    · rename_i e time he
      exact hend e time he
    · rename_i he
      obtain ⟨time, hlead, hstuck⟩ := hnone he
      exact hlead.trans (leads_of_arrival?_none n hstuck)
  · exact .refl _

end Stage

/-! ## The nodes of a campaign -/

/-- Rounds of the nodes in the order of a schedule, which says whose turn it is. -/
def interleave (schedule : List Nat) (stages : List Stage) : List Stage :=
  schedule.foldl (fun stages i => stages.modify i Stage.round) stages

/-- The others' rounds make no difference to a node. -/
theorem interleave_getElem? (schedule : List Nat) (stages : List Stage) (i : Nat) :
    (interleave schedule stages)[i]? = stages[i]?.map Stage.round^[schedule.count i] := by
  induction schedule generalizing stages with
  | nil => simp [interleave]
  | cons j schedule ih =>
    rw [interleave, List.foldl_cons, ← interleave, ih, List.getElem?_modify, List.count_cons]
    by_cases hij : j = i
    · simp [hij, Option.map_map, Function.comp_def]
    · simp [hij]

/-- Where a node of a campaign stands when its start line was sent: it waits up to its own
deadline. -/
def Campaign.stage (c : Campaign) (now cut : Nat) (stop : Option Nat) (n : Node) : Stage :=
  .start (c.vigil now cut stop (c.started now n).deadline) (c.startNode now n)

/-- Where the nodes of a campaign stand when all start lines were sent. -/
def Campaign.stages (c : Campaign) (now cut : Nat) (stop : Option Nat) (nodes : List Node) :
    List Stage :=
  nodes.map (c.stage now cut stop)

end ProximityLab
