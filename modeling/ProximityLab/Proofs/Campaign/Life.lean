import ProximityLab.Proofs.Campaign.Records
import ProximityLab.Proofs.Campaign.Rounds
import Mathlib.Logic.Relation

/-!
# The life of a node

Nodes get their identifiers and go through campaigns, each campaign with some of them, and a
campaign may be abandoned at any moment.

- **A campaign** (`passes_run`, `passes_abandoned`): whichever way a campaign ends, and wherever it
  is abandoned, a node is as it was, is being started, is waited for, or has finished
  (`Campaign.Passes`).
- **A step** (`Node.Step.moves`): whatever happens to the nodes, each goes one step of its own life
  (`Node.Moves`).
- **A life** (`Node.lives`): what a node has is kept, and unless it is in flight its phase agrees
  with its outcome.
-/

namespace ProximityLab

namespace Campaign

/-! ## A campaign -/

/-- The node that is being sent its start line. -/
def starting (n : Node) (t : Terminal) : Node := { n with terminal := t, phase := .starting }

/-- The node that is waited for. -/
def waiting (n : Node) (t : Terminal) : Node := { n with terminal := t, phase := .awaiting }

/-- What a campaign can have made of a node: nothing yet, it is being started, it is waited for, or
it has finished. -/
inductive Passes (n : Node) : Node → Prop where
  | apart : Passes n n
  | starting (t : Terminal) : Passes n (starting n t)
  | waiting (t : Terminal) : Passes n (waiting n t)
  | finished (t : Terminal) (lines : List String) (outcome : Outcome) :
      Passes n ((n.withTerminal t).finish lines outcome)

/-- A node whose start line was taken waits, another one has finished. -/
theorem startNode_cases (c : Campaign) (now : Nat) (n : Node) :
    (∃ t, c.startNode now n = waiting n t) ∨
      ∃ t lines outcome, c.startNode now n = (n.withTerminal t).finish lines outcome := by
  unfold startNode
  split
  · exact .inl ⟨_, rfl⟩
  · exact .inr ⟨_, _, _, rfl⟩

theorem passes_startNode (c : Campaign) (now : Nat) (n : Node) : Passes n (c.startNode now n) := by
  obtain ⟨t, hstart⟩ | ⟨t, lines, outcome, hstart⟩ := c.startNode_cases now n <;> rw [hstart]
  · exact .waiting t
  · exact .finished t lines outcome

theorem passes_settle (n : Node) (t : Terminal) (r : VigilEnd × Terminal) :
    Passes n (settle (waiting n t) r) := by
  obtain ⟨⟨lines, outcome, time⟩ | _ | _, t'⟩ := r
  · exact .finished t' lines outcome
  · exact .waiting t'
  · exact .waiting t'

theorem phase_finish_ne_awaiting (lines : List String) (outcome : Outcome) (n : Node) :
    (n.finish lines outcome).phase ≠ .awaiting := by
  cases outcome <;> simp [Node.finish, Outcome.phase]

theorem passes_resolve (c : Campaign) (now : Nat) (v : Vigil) (n : Node) :
    Passes n (v.resolve (c.startNode now n)) := by
  unfold Vigil.resolve
  obtain ⟨t, hstart⟩ | ⟨t, lines, outcome, hstart⟩ := c.startNode_cases now n <;> rw [hstart]
  · exact passes_settle n t _
  · rw [if_neg (phase_finish_ne_awaiting lines outcome _)]
    exact .finished t lines outcome

theorem passes_startAll (c : Campaign) (now : Nat) (nodes : List Node) :
    List.Forall₂ Passes nodes (c.startAll now nodes).2 := by
  refine (c.startAll_nodes now nodes).imp ?_
  rintro n _ (rfl | rfl)
  · exact c.passes_startNode now n
  · exact .apart

/-- Whichever way a campaign ends, this is what it makes of its nodes. -/
theorem passes_run (c : Campaign) (now cut : Nat) (stop : Option Nat) (nodes : List Node) :
    List.Forall₂ Passes nodes (c.run now cut stop nodes).nodes := by
  have hsame : List.Forall₂ Passes nodes nodes := List.forall₂_same.2 fun m _ => .apart
  -- also where an instant is out of range, each node is as some vigil resolved it
  have hawaited : List.Forall₂ Passes nodes (c.progress now cut stop nodes).nodes := by
    have hall := c.progress_nodes now cut stop nodes
    rw [List.forall₂_map_left_iff] at hall
    refine hall.imp ?_
    rintro n _ ⟨v, rfl⟩
    exact c.passes_resolve now v n
  have hrun := c.runs now cut stop nodes
  generalize c.run now cut stop nodes = r at hrun ⊢
  cases hrun with
  | refused | endless => exact hsame
  | unlimited hreached => exact hreached ▸ c.passes_startAll now nodes
  | overflowed hp | gaveUp hp | done hp => exact hp ▸ hawaited

/-! ## A campaign that is abandoned -/

/-- The node at a stage of its campaign. -/
def stageNode : Stage → Node
  | .waiting n w => n.withTerminal w.terminal
  | .left n => n

/-- How a campaign leaves its nodes if it is abandoned: while one of them is sent its start line,
whose terminal may then be in any state, or while they are waited for, after some rounds of each. -/
inductive Abandoned (c : Campaign) (now cut : Nat) (stop : Option Nat) :
    List Node → List Node → Prop where
  | starting (front : List Node) (n : Node) (back : List Node) (t : Terminal) :
      Abandoned c now cut stop (front ++ n :: back)
        (front.map (c.startNode now) ++ starting n t :: back)
  | waiting (nodes : List Node) (schedule : List Nat) :
      Abandoned c now cut stop nodes
      ((interleave schedule (c.stages now cut stop nodes)).map stageNode)

/-- The stage is one of the node's. -/
inductive AtStage (n : Node) : Stage → Prop where
  | waiting (t : Terminal) (w : Watch) : AtStage n (.waiting (waiting n t) w)
  | left {n' : Node} (h : Passes n n') : AtStage n (.left n')

theorem AtStage.round {n : Node} {s : Stage} (h : AtStage n s) : AtStage n s.round := by
  cases h with
  | left h => exact .left h
  | waiting t w =>
    -- a round that reads a line or sends the stop line goes on waiting, every other one settles the
    -- node
    rw [Stage.round]
    split
    · split
      · exact .left (passes_settle n t _)
      · exact .waiting t _
    · split
      · split
        · exact .left (passes_settle n t _)
        · split
          · exact .left (passes_settle n t _)
          · exact .waiting t _
      · exact .left (passes_settle n t _)

theorem AtStage.passes {n : Node} {s : Stage} (h : AtStage n s) : Passes n (stageNode s) := by
  cases h with
  | waiting t w => exact .waiting w.terminal
  | left h => exact h

theorem forall₂_modify {α β : Type} {R : α → β → Prop} {f : β → β} (hf : ∀ a b, R a b → R a (f b))
    {as : List α} {bs : List β} (h : List.Forall₂ R as bs) (i : Nat) :
    List.Forall₂ R as (bs.modify i f) := by
  induction h generalizing i with
  | nil => cases i <;> exact .nil
  | cons hab h ih =>
    cases i with
    | zero => exact .cons (hf _ _ hab) h
    | succ i => exact .cons hab (ih i)

/-- In whichever order the nodes take their turns, each is at a stage of its own. -/
theorem atStage_interleave (c : Campaign) (now cut : Nat) (stop : Option Nat) (nodes : List Node)
    (schedule : List Nat) :
    List.Forall₂ AtStage nodes (interleave schedule (c.stages now cut stop nodes)) := by
  have hstart : List.Forall₂ AtStage nodes (c.stages now cut stop nodes) := by
    rw [stages, List.forall₂_map_right_iff, List.forall₂_same]
    intro n _
    unfold stage Stage.start
    obtain ⟨t, hn⟩ | ⟨t, lines, outcome, hn⟩ := c.startNode_cases now n <;> rw [hn]
    · exact .waiting t _
    · rw [if_neg (phase_finish_ne_awaiting lines outcome _)]
      exact .left (.finished t lines outcome)
  generalize c.stages now cut stop nodes = stages at hstart
  induction schedule generalizing stages with
  | nil => exact hstart
  | cons i schedule ih => exact ih _ (forall₂_modify (fun _ _ => AtStage.round) hstart i)

theorem passes_abandoned {c : Campaign} {now cut : Nat} {stop : Option Nat}
    {nodes nodes' : List Node} (h : c.Abandoned now cut stop nodes nodes') :
    List.Forall₂ Passes nodes nodes' := by
  cases h with
  | starting front n back t =>
    refine List.rel_append ?_ (.cons (.starting t) (List.forall₂_same.2 fun m _ => .apart))
    rw [List.forall₂_map_right_iff, List.forall₂_same]
    exact fun m _ => c.passes_startNode now m
  | waiting _ schedule =>
    rw [List.forall₂_map_right_iff]
    exact (c.atStage_interleave now cut stop nodes schedule).imp fun _ _ => AtStage.passes

end Campaign

/-! ## One node -/

namespace Node

/-- The node after it was given an identifier, if it can be given one. -/
def identified (uid : String) (n : Node) : Node := (n.setUid uid).toOption.getD n

/-- The node takes part in a campaign. -/
def InFlight (n : Node) : Prop := n.phase.inFlight = true

instance (n : Node) : Decidable n.InFlight := inferInstanceAs (Decidable (_ = _))

/-- What happens to a node: an identifier is given to it, its device does something, or it goes
through a campaign. -/
inductive Moves (n : Node) : Node → Prop where
  | stays : Moves n n
  | identified (uid : String) : Moves n (n.identified uid)
  | device (t : Terminal) : Moves n (n.withTerminal t)
  | campaign {n' : Node} (hfree : ¬ n.InFlight) (h : Campaign.Passes n n') : Moves n n'

/-- The phase of a node that is in no campaign agrees with its outcome. -/
def Consistent (n : Node) : Prop :=
  ¬ n.InFlight → n.phase = .idle ∧ n.record.outcome = none ∨ n.Resolved

/-- One node goes on from the other: an identifier is kept, and records are only added to. -/
structure GoesOn (n n' : Node) : Prop where
  uid : ∀ uid, n.record.uid = some uid → n'.record.uid = some uid
  summaries : n.record.summaries <+: n'.record.summaries
  telemetry : n.record.telemetry <+: n'.record.telemetry

theorem GoesOn.of_record {n n' : Node} (h : n'.record = n.record) : GoesOn n n' := by
  constructor <;> simp [h]

theorem GoesOn.refl (n : Node) : GoesOn n n := .of_record rfl

theorem GoesOn.trans {n n' n'' : Node} (h : GoesOn n n') (h' : GoesOn n' n'') : GoesOn n n'' :=
  ⟨fun uid hu => h'.uid uid (h.uid uid hu), h.summaries.trans h'.summaries,
    h.telemetry.trans h'.telemetry⟩

/-- An identifier is given to a node that has none and is idle; another node stays as it is. -/
theorem identified_eq (uid : String) (n : Node) :
    n.identified uid = if n.record.uid = none ∧ n.phase = .idle then
      { n with record := { n.record with uid := some uid } } else n := by
  unfold identified
  cases hset : n.setUid uid with
  | ok n' =>
    obtain ⟨huid, hidle, rfl⟩ := setUid_eq_ok_iff.1 hset
    rw [if_pos ⟨huid, hidle⟩]
    rfl
  | error cause =>
    rw [if_neg]
    · rfl
    · rintro ⟨huid, hidle⟩
      rw [setUid_eq_ok_iff.2 ⟨huid, hidle, rfl⟩] at hset
      cases hset

theorem goesOn_identified (uid : String) (n : Node) : GoesOn n (n.identified uid) := by
  rw [identified_eq]
  split
  · rename_i h
    refine ⟨fun old hold => ?_, List.prefix_refl _, List.prefix_refl _⟩
    rw [h.1] at hold
    cases hold
  · exact .refl n

theorem Moves.goesOn {n n' : Node} (h : Moves n n') : GoesOn n n' := by
  cases h with
  | stays => exact .refl n
  | identified uid => exact goesOn_identified uid n
  | device t => exact .of_record rfl
  | campaign _ h =>
    cases h with
    | apart => exact .refl n
    | starting t => exact .of_record rfl
    | waiting t => exact .of_record rfl
    | finished t lines outcome =>
      exact ⟨fun _ h => h, List.prefix_append _ _, List.prefix_append _ _⟩

theorem Resolved.congr {n n' : Node} (hphase : n'.phase = n.phase)
    (houtcome : n'.record.outcome = n.record.outcome) (h : n.Resolved) : n'.Resolved := by
  cases h with
  | completed hcompleted ho => exact .completed (hphase.trans hcompleted) (houtcome ▸ ho)
  | timedOut htimedOut ho => exact .timedOut (hphase.trans htimedOut) (houtcome.trans ho)
  | failed cause hfailed ho => exact .failed cause (hphase.trans hfailed) (houtcome.trans ho)

theorem Consistent.congr {n n' : Node} (hphase : n'.phase = n.phase)
    (houtcome : n'.record.outcome = n.record.outcome) (h : Consistent n) : Consistent n' := by
  intro hflight
  unfold InFlight at hflight
  rw [hphase] at hflight
  rcases h hflight with ⟨hidle, hnone⟩ | hresolved
  · exact .inl ⟨hphase.trans hidle, houtcome.trans hnone⟩
  · exact .inr (hresolved.congr hphase houtcome)

theorem consistent_new (t : Terminal) (node : String) (position : Option Position) :
    Consistent (.new t node position) := fun _ => .inl ⟨rfl, rfl⟩

theorem Consistent.moves {n n' : Node} (hn : Consistent n) (h : Moves n n') : Consistent n' := by
  cases h with
  | stays => exact hn
  | identified uid =>
    rw [identified_eq]
    split
    · exact .congr (n := n) rfl rfl hn
    · exact hn
  | device t => exact .congr (n := n) rfl rfl hn
  | campaign _ h =>
    cases h with
    | apart => exact hn
    -- a node that an abandoned campaign left in flight stays there, and nothing is asked of it
    | starting t => exact fun hflight => absurd rfl hflight
    | waiting t => exact fun hflight => absurd rfl hflight
    | finished t lines outcome => exact fun _ => .inr (resolved_finish lines outcome _)

/-! ## All nodes -/

variable {ι : Type} [DecidableEq ι]

/-- The nodes when those that were chosen have changed. -/
def place (s : ι → Node) (chosen : List ι) (nodes : List Node) : ι → Node := fun i =>
  ((chosen.zip nodes).lookup i).getD (s i)

/-- What happens to some nodes: one is given an identifier, the device of one does something, a
campaign with those that were chosen is run, or abandoned. -/
inductive Step (s : ι → Node) : (ι → Node) → Prop where
  | identify (i : ι) (uid : String) : Step s (Function.update s i ((s i).identified uid))
  | device (i : ι) (t : Terminal) : Step s (Function.update s i ((s i).withTerminal t))
  | run (c : Campaign) (now cut : Nat) (stop : Option Nat) {chosen : List ι}
      (hchosen : chosen.Nodup) :
      Step s (place s chosen (c.run now cut stop (chosen.map s)).nodes)
  | abandon (c : Campaign) (now cut : Nat) (stop : Option Nat) {chosen : List ι}
      (hchosen : chosen.Nodup) (hfree : ∀ i ∈ chosen, ¬ (s i).InFlight) {nodes : List Node}
      (h : c.Abandoned now cut stop (chosen.map s) nodes) : Step s (place s chosen nodes)

/-- A campaign with a node that is in flight is refused, and nothing is done. -/
theorem run_busy (c : Campaign) (now cut : Nat) (stop : Option Nat) {nodes : List Node}
    (h : ∃ n ∈ nodes, n.InFlight) : ∃ n ∈ nodes, n.InFlight ∧
      c.run now cut stop nodes = ⟨.busy (.notIdle n.id "start an epoch"), now, nodes, nodes⟩ := by
  cases hfind : nodes.find? (·.phase.inFlight) with
  | none =>
    obtain ⟨n, hn, hflight⟩ := h
    exact absurd hflight (List.find?_eq_none.1 hfind n hn)
  | some n =>
    refine ⟨n, List.mem_of_find?_eq_some hfind,
      List.find?_some (p := fun n : Node => n.phase.inFlight) hfind, ?_⟩
    rw [Campaign.run, hfind]

theorem forall₂_campaign {nodes nodes' : List Node} (hfree : ∀ n ∈ nodes, ¬ n.InFlight)
    (h : List.Forall₂ Campaign.Passes nodes nodes') : List.Forall₂ Moves nodes nodes' := by
  have hboth := (List.forall₂_and_left (p := fun n => ¬ n.InFlight) nodes nodes').2 ⟨hfree, h⟩
  exact hboth.imp fun _ _ h => .campaign h.1 h.2

theorem moves_run (c : Campaign) (now cut : Nat) (stop : Option Nat) (nodes : List Node) :
    List.Forall₂ Moves nodes (c.run now cut stop nodes).nodes := by
  by_cases hflight : ∃ n ∈ nodes, n.InFlight
  · obtain ⟨n, -, -, hrun⟩ := run_busy c now cut stop hflight
    rw [hrun]
    exact List.forall₂_same.2 fun m _ => .stays
  · exact forall₂_campaign (fun n hn h => hflight ⟨n, hn, h⟩) (c.passes_run now cut stop nodes)

theorem moves_place {s : ι → Node} {chosen : List ι} {nodes : List Node}
    (h : List.Forall₂ Moves (chosen.map s) nodes) (i : ι) :
    Moves (s i) (place s chosen nodes i) := by
  induction chosen generalizing nodes with
  | nil => exact .stays
  | cons j chosen ih =>
    cases h with
    | @cons _ n _ nodes hn h =>
      rw [place, List.zip_cons_cons, List.lookup_cons]
      by_cases hij : i = j
      · subst hij
        simpa using hn
      · rw [show (i == j) = false by simpa using hij]
        exact ih h

/-- A step of the nodes is a step of each. -/
theorem Step.moves {s s' : ι → Node} (h : Step s s') (i : ι) : Moves (s i) (s' i) := by
  have hupdate : ∀ (j : ι) (n : Node), Moves (s j) n → Moves (s i) (Function.update s j n i) := by
    intro j n hn
    by_cases hij : i = j
    · subst hij
      rwa [Function.update_self]
    · rw [Function.update_of_ne hij]
      exact .stays
  cases h with
  | identify j uid => exact hupdate j _ (.identified uid)
  | device j t => exact hupdate j _ (.device t)
  | run c now cut stop hchosen => exact moves_place (moves_run c now cut stop _) i
  | abandon c now cut stop hchosen hfree h =>
    exact moves_place (forall₂_campaign (by simpa using hfree) (Campaign.passes_abandoned h)) i

/-- One node goes on from the other if steps lead from it there. -/
theorem goesOn_of_steps {s s' : ι → Node} (h : Relation.ReflTransGen Step s s') (i : ι) :
    GoesOn (s i) (s' i) := by
  induction h with
  | refl => exact .refl _
  | tail _ hstep ih => exact ih.trans (hstep.moves i).goesOn

theorem consistent_of_steps {s s' : ι → Node} (h : Relation.ReflTransGen Step s s') {i : ι}
    (hs : Consistent (s i)) : Consistent (s' i) := by
  induction h with
  | refl => exact hs
  | tail _ hstep ih => exact ih.moves (hstep.moves i)

/-- Whatever happens to nodes that were new: what a node has is kept, and the phase of a node that
is not in flight agrees with its outcome. An identifier is given to a node exactly if it has none
and is idle. A campaign that is done has resolved its nodes, and one with a node that is in flight
is refused, with the nodes as they were. -/
theorem lives {s₀ s s' : ι → Node} (hnew : ∀ i, ∃ t node position, s₀ i = .new t node position)
    (hs : Relation.ReflTransGen Step s₀ s) (hs' : Relation.ReflTransGen Step s s') :
    (∀ i, (s i).GoesOn (s' i) ∧ (s i).Consistent) ∧
      (∀ i uid, ((∃ n, (s i).setUid uid = .ok n) ↔ (s i).record.uid = none ∧ (s i).phase = .idle) ∧
        ((s i).identified uid = if (s i).record.uid = none ∧ (s i).phase = .idle then
          { s i with record := { (s i).record with uid := some uid } } else s i)) ∧
      ∀ (c : Campaign) (now cut : Nat) (stop : Option Nat) (chosen : List ι),
        ((c.run now cut stop (chosen.map s)).ending = .done →
          ∀ n ∈ (c.run now cut stop (chosen.map s)).nodes, n.Resolved) ∧
        ((∃ i ∈ chosen, (s i).InFlight) →
          ∃ i ∈ chosen, (s i).InFlight ∧
          c.run now cut stop (chosen.map s) =
          ⟨.busy (.notIdle (s i).id "start an epoch"), now, chosen.map s, chosen.map s⟩) := by
  refine ⟨fun i => ⟨goesOn_of_steps hs' i, ?_⟩, fun i uid => ⟨?_, identified_eq uid (s i)⟩,
    fun c now cut stop chosen => ⟨Campaign.resolved_of_done, fun hflight => ?_⟩⟩
  · obtain ⟨t, node, position, hi⟩ := hnew i
    exact consistent_of_steps hs (hi ▸ consistent_new t node position)
  · simp only [setUid_eq_ok_iff]
    exact ⟨fun ⟨n, huid, hidle, _⟩ => ⟨huid, hidle⟩, fun ⟨huid, hidle⟩ => ⟨_, huid, hidle, rfl⟩⟩
  · have hmap : ∃ n ∈ chosen.map s, n.InFlight := by simpa using hflight
    obtain ⟨n, hn, hbusy, hrun⟩ := run_busy c now cut stop hmap
    obtain ⟨i, hi, rfl⟩ := List.mem_map.1 hn
    exact ⟨i, hi, hbusy, hrun⟩

/-- A node that gives its prompt back, and one whose start line is never taken. -/
def twoNodes (quick : Bool) : Node :=
  .new (.opened 0 (.uniform (.accepted (if quick then [⟨9, .line prompt⟩] else [])) none))
    (if quick then "quick" else "stuck") none

/-- An identifier survives two campaigns, of which the second is abandoned, and the next one is
refused. -/
theorem lives_abandoned :
    let c : Campaign := ⟨.default, .ofMillis 50, .ofSeconds 1⟩
    let named := Function.update twoNodes true ((twoNodes true).identified "DW0001")
    let done := place named [true] (c.run 0 10000 none ([true].map named)).nodes
    let abandoned := place done [true, false]
      ([c.startNode 20 (done true)] ++ [Campaign.starting (done false) (done false).terminal])
    (∀ n ∈ (c.run 0 10000 none ([true].map named)).nodes, n.Resolved) ∧
      (abandoned true).record.uid = some "DW0001" ∧ (abandoned true).phase = .awaiting ∧
      (c.run 30 10000 none ([false].map abandoned)).ending =
      .busy (.notIdle "stuck" "start an epoch") := by
  intro c named done abandoned
  have hnew : ∀ i, ∃ t node position, twoNodes i = .new t node position := fun i => ⟨_, _, _, rfl⟩
  have hnamed : Relation.ReflTransGen Step twoNodes named := .single (.identify true "DW0001")
  have hdone : Step named done := .run c 0 10000 none (by simp)
  have hfree : ∀ i ∈ [true, false], ¬ (done i).InFlight := by decide +kernel
  have habandoned : Step done abandoned :=
    .abandon c 20 10000 none (by simp) hfree
    (.starting [done true] (done false) [] (done false).terminal)
  obtain ⟨hkept, -, hruns⟩ := lives hnew hnamed (.tail (.single hdone) habandoned)
  obtain ⟨-, -, hruns'⟩ := lives hnew ((hnamed.tail hdone).tail habandoned) .refl
  have hresolved := (hruns c 0 10000 none [true]).1 (by decide +kernel)
  have huid : (abandoned true).record.uid = some "DW0001" := (hkept true).1.uid "DW0001" rfl
  obtain ⟨i, hi, -, hrun⟩ :=
    (hruns' c 30 10000 none [false]).2 ⟨false, List.mem_singleton_self _, rfl⟩
  obtain rfl := List.mem_singleton.1 hi
  exact ⟨hresolved, huid, by decide +kernel, by rw [hrun]; rfl⟩

end Node

end ProximityLab
