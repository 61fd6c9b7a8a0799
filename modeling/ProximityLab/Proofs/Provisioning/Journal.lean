import ProximityLab.Proofs.Provisioning.Invariant
import ProximityLab.Proofs.Session.Says

/-!
# The journal of a fleet

What the journal says about the lines that were sent:

- **Accuracy**: it has the lines that each device has taken, in their order and with their moments
  (`Fleet.Accurate`). All that is done with a fleet keeps it so.
- **Silence**: provisioning and closing enter no line (`Fleet.Silent`).
- **Use**: nodes that were used in turn and come back enter the lines that their devices have taken
  meanwhile, and no others (`Fleet.takeBack_spec`). The entries are in the order of their moments.
-/

namespace ProximityLab

/-- The moment of a line that was sent. -/
def Event.moment? : Event → Option Nat
  | .sent _ time _ => some time
  | _ => none

/-- The event is a line that was sent. -/
def Event.isSent (e : Event) : Bool := e.moment?.isSome

/-- The line that an event has sent to a terminal, as it was tried there. -/
def Event.trial? (i : Nat) : Event → Option Trial
  | .sent j time line => if j = i then some ⟨time, line, true⟩ else none
  | _ => none

/-- The moments of all lines that were sent, according to a journal. -/
def moments (journal : List Event) : List Nat := journal.filterMap Event.moment?

/-- The lines that were sent to a terminal, according to a journal. -/
def linesTo (i : Nat) (journal : List Event) : List Trial := journal.filterMap (Event.trial? i)

theorem moments_append (a b : List Event) : moments (a ++ b) = moments a ++ moments b :=
  List.filterMap_append

theorem linesTo_append (i : Nat) (a b : List Event) :
    linesTo i (a ++ b) = linesTo i a ++ linesTo i b :=
  List.filterMap_append

theorem moments_of_silent {l : List Event} (h : ∀ e ∈ l, e.isSent = false) : moments l = [] :=
  List.filterMap_eq_nil_iff.2 fun e he => by simpa [Event.isSent] using h e he

theorem linesTo_entries (i j : Nat) (trials : List Trial) :
    linesTo i (Fleet.entries j trials) = if j = i then trials.filter (·.taken) else [] := by
  induction trials with
  | nil => simp [Fleet.entries, linesTo]
  | cons a trials ih =>
    obtain ⟨time, line, _ | _⟩ := a
    · simpa [Fleet.entries, linesTo] using ih
    · simp only [Fleet.entries, linesTo, List.filter_cons_of_pos, List.map_cons] at ih ⊢
      rw [List.filterMap_cons, ih]
      by_cases h : j = i <;> simp [Event.trial?, h]

theorem moments_entries (i : Nat) (trials : List Trial) :
    moments (Fleet.entries i trials) = (trials.filter (·.taken)).map (·.time) := by
  simp [moments, Fleet.entries, Event.moment?, Function.comp_def]

/-- The events are such lines that were sent. -/
def AreLines (P : String → Prop) (l : List Event) : Prop :=
  ∀ e ∈ l, ∃ i time line, e = .sent i time line ∧ P line

theorem areLines_nil (P : String → Prop) : AreLines P [] := by simp [AreLines]

theorem areLines_entries {P : String → Prop} {i : Nat} {trials : List Trial}
    (h : ∀ a ∈ trials, P a.line) : AreLines P (Fleet.entries i trials) := by
  intro e he
  obtain ⟨a, ha, rfl⟩ := List.mem_map.1 he
  exact ⟨i, a.time, a.line, rfl, h a (List.mem_of_mem_filter ha)⟩

namespace Fleet

variable {f g h : Fleet}

/-! ## Accuracy -/

/-- The lines that the device behind a terminal has taken. -/
def sentTo (f : Fleet) (i : Nat) : List Trial :=
  (f.connections[i]?.map fun c => c.terminal.trials.filter (·.taken)).getD []

/-- For each terminal the journal has the lines that its device has taken. -/
def Accurate (f : Fleet) : Prop := ∀ i, linesTo i f.journal = f.sentTo i

namespace Accurate

theorem new (tool : FirmwareTool) (recipe : Recipe) (files : FileSystem) :
    Accurate (.new tool recipe files) := by
  intro i
  simp [Fleet.new, sentTo, linesTo]

theorem openTerminal (hf : f.Accurate) (now : Nat) (call : ToolCall) :
    (f.openTerminal now call).2.Accurate := by
  unfold Fleet.openTerminal
  rcases f.tool.openTerminal f.calls f.files call with ⟨b | _ | _, files⟩
  · intro i
    have hi := hf i
    simp only [sentTo] at hi ⊢
    rw [linesTo_append, hi]
    rcases Nat.lt_trichotomy i f.connections.length with hlt | rfl | hgt
    · simp [List.getElem?_append_left hlt, linesTo, Event.trial?]
    · simp [linesTo, Event.trial?, Terminal.opened]
    · have hlate : (f.connections ++ [Connection.mk call.node (.opened now b)]).length ≤ i := by
        rw [List.length_append]
        exact hgt
      rw [List.getElem?_eq_none (Nat.le_of_lt hgt), List.getElem?_eq_none hlate]
      rfl
  · exact hf
  · exact hf

/-- The terminal of a device is exchanged for one on which more lines were tried, and those that the
device has taken are entered. -/
theorem of_set {i : Nat} {c : Connection} {t : Terminal} {l : List Event} {trials : List Trial}
    (hf : f.Accurate) (hc : f.connections[i]? = some c)
    (hg : g.connections = f.connections.set i { c with terminal := t })
    (hj : g.journal = f.journal ++ l) (ht : t.trials = c.terminal.trials ++ trials)
    (hl : ∀ j, linesTo j l = if i = j then trials.filter (·.taken) else []) : g.Accurate := by
  intro j
  have hfj := hf j
  obtain ⟨hlt, rfl⟩ := List.getElem?_eq_some_iff.1 hc
  rw [hj, linesTo_append, hfj, hl, sentTo, sentTo, hg, List.getElem?_set]
  by_cases hij : i = j
  · subst hij
    simp [hlt, ht]
  · simp [hij]

theorem close (hf : f.Accurate) (i : Nat) : (f.close i).Accurate := by
  unfold Fleet.close
  split
  · exact hf
  · rename_i c hc
    refine hf.of_set (t := c.terminal.close.2) hc rfl rfl (List.append_nil _).symm fun j => ?_
    simp [linesTo, Event.trial?]

/-- Provisioning and closing keep the journal accurate. -/
theorem invariant (now : Nat) : Invariant (fun _ => True) now Accurate where
  build _ _ _ hf := hf
  openTerminal _ call _ hf := hf.openTerminal now call
  enlist _ _ hf := hf
  close _ i hf := hf.close i

theorem giveBack (hf : f.Accurate) {i : Nat} {t : Terminal}
    (ht : ∀ c, f.connections[i]? = some c → c.terminal.trials <+: t.trials) :
    (f.giveBack i t).Accurate := by
  unfold Fleet.giveBack
  split
  · exact hf
  · rename_i c hc
    obtain ⟨trials, htrials⟩ := ht c hc
    refine hf.of_set hc rfl rfl htrials.symm fun j => ?_
    rw [linesTo_entries, ← htrials, List.drop_left]

end Accurate

/-! ## Silence -/

/-- No line was entered. -/
def Silent (f : Fleet) : Prop := ∀ e ∈ f.journal, e.isSent = false

namespace Silent

theorem entry {e : Event} (hf : f.Silent) (hg : g.journal = f.journal ++ [e])
    (he : e.isSent = false) : g.Silent := by
  unfold Silent at hf ⊢
  rw [hg, List.forall_mem_append]
  exact ⟨hf, by simpa using he⟩

/-- Provisioning and closing are silent. -/
theorem invariant (now : Nat) : Invariant (fun _ => True) now Silent where
  build _ _ _ hf := hf
  openTerminal f call _ hf := by
    unfold openTerminal
    rcases f.tool.openTerminal f.calls f.files call with ⟨b | _ | _, files⟩
    · exact hf.entry rfl rfl
    · exact hf
    · exact hf
  enlist _ _ hf := hf
  close f i hf := by
    unfold close
    split
    · exact hf
    · exact hf.entry rfl rfl

end Silent

/-! ## Use -/

/-- All terminals, in the order in which they were opened. -/
def terminals (f : Fleet) : List Terminal := f.connections.map (·.terminal)

/-- Between two moments such lines were entered and no others, in the order of their moments. -/
def Enters (P : String → Prop) (now later : Nat) (f g : Fleet) : Prop :=
  ∃ l, g.journal = f.journal ++ l ∧ AreLines P l ∧ Within now later (moments l)

theorem Enters.trans {P : String → Prop} {now mid later : Nat} (hfg : Enters P now mid f g)
    (hgh : Enters P mid later g h) : Enters P now later f h := by
  obtain ⟨l, hl, hP, hwithin⟩ := hfg
  obtain ⟨l', hl', hP', hwithin'⟩ := hgh
  refine ⟨l ++ l', by rw [hl', hl, List.append_assoc], List.forall_mem_append.2 ⟨hP, hP'⟩, ?_⟩
  rw [moments_append]
  exact hwithin.append hwithin'

/-- Nodes whose terminals were used one after the other between two moments. On each of them some of
the lines of such a list were tried, in their order. -/
inductive InTurn (L : List String → Prop) : Nat → Nat → List Terminal → List Node → Prop
  | nil {now later : Nat} (h : now ≤ later) : InTurn L now later [] []
  | cons {now mid later : Nat} {lines : List String} {t : Terminal} {n : Node}
      {terminals : List Terminal} {nodes : List Node} (hlines : L lines)
      (hsaid : t.Says lines now mid n.terminal) (hrest : InTurn L mid later terminals nodes) :
      InTurn L now later (t :: terminals) (n :: nodes)

namespace InTurn

variable {L : List String → Prop} {lines : List String} {terminals : List Terminal}
  {nodes : List Node}

/-- Nodes that were all used at one moment were used one after the other. -/
theorem of_forall₂ {m : Nat} (hlines : L lines)
    (h : List.Forall₂ (fun t n => t.Says lines m m n.terminal) terminals nodes) :
    InTurn L m m terminals nodes := by
  induction h with
  | nil => exact .nil (Nat.le_refl m)
  | cons hsaid _ ih => exact .cons hlines hsaid ih

/-- Nodes on which nothing was said. -/
theorem refl (hlines : L lines) (m : Nat) (nodes : List Node) :
    InTurn L m m (nodes.map (·.terminal)) nodes := by
  refine of_forall₂ hlines ?_
  rw [List.forall₂_map_left_iff, List.forall₂_same]
  exact fun n _ => .refl n.terminal (Nat.le_refl m) lines

theorem each {now later : Nat} (h : InTurn L now later terminals nodes) :
    List.Forall₂ (fun t n => ∃ lines first last, L lines ∧ t.Says lines first last n.terminal)
      terminals nodes := by
  induction h with
  | nil => exact .nil
  | cons hlines hsaid _ ih => exact .cons ⟨_, _, _, hlines, hsaid⟩ ih

end InTurn

/-- A node that comes back enters its lines. -/
theorem giveBack_of_says {P : String → Prop} {i : Nat} {c : Connection} {t : Terminal}
    {lines : List String} {now later : Nat} (hf : f.Accurate) (hc : f.connections[i]? = some c)
    (hsaid : c.terminal.Says lines now later t) (hlines : ∀ line ∈ lines, P line) :
    Enters P now later f (f.giveBack i t) ∧ (f.giveBack i t).Accurate := by
  obtain ⟨trials, htrials, hsub, hwithin⟩ := hsaid
  constructor
  · unfold giveBack
    rw [hc]
    refine ⟨_, rfl, ?_⟩
    rw [htrials, List.drop_left, moments_entries]
    exact ⟨areLines_entries fun a ha => hlines _ (hsub.subset (List.mem_map_of_mem ha)),
      hwithin.sublist (List.filter_sublist.map _)⟩
  · refine hf.giveBack fun c' hc' => ?_
    rw [hc] at hc'
    obtain rfl := Option.some.inj hc'
    exact ⟨trials, htrials.symm⟩

/-- When all nodes have come back, the fleet has their terminals, and their lines are entered. -/
theorem takeBack_spec {L : List String → Prop} {P : String → Prop} {nodes : List Node}
    {now later : Nat} (hf : f.Accurate) (hnodes : InTurn L now later f.terminals nodes)
    (hP : ∀ lines, L lines → ∀ line ∈ lines, P line) :
    (f.takeBack nodes).terminals = nodes.map (·.terminal) ∧
      Enters P now later f (f.takeBack nodes) ∧ (f.takeBack nodes).Accurate := by
  -- the terminals in front have come back already
  have hfold : ∀ (mid front : List Connection) (nodes : List Node) (now : Nat) (g : Fleet),
      g.connections = front ++ mid → g.Accurate → InTurn L now later (mid.map (·.terminal)) nodes →
      let g' := (nodes.zipIdx front.length).foldl (fun f p => f.giveBack p.2 p.1.terminal) g
      g'.terminals = front.map (·.terminal) ++ nodes.map (·.terminal) ∧
        Enters P now later g g' ∧ g'.Accurate := by
    intro mid
    induction mid with
    | nil =>
      rintro front nodes now g hg haccurate hused
      cases hused with
      | nil hle =>
        refine ⟨?_, ⟨[], (List.append_nil _).symm, areLines_nil P, .nil hle⟩, haccurate⟩
        simp [terminals, hg]
    | cons c mid ih =>
      rintro front nodes now g hg haccurate hused
      cases hused with
      | @cons _ _ _ lines _ n _ nodes hlines hsaid hrest =>
        have hc : g.connections[front.length]? = some c := by simp [hg]
        have hback : (g.giveBack front.length n.terminal).connections =
            (front ++ [{ c with terminal := n.terminal }]) ++ mid := by
          unfold giveBack
          rw [hc]
          simp [hg]
        obtain ⟨henters, haccurate⟩ := giveBack_of_says haccurate hc hsaid (hP lines hlines)
        obtain ⟨hterminals, henters', hall⟩ := ih _ _ _ _ hback haccurate hrest
        rw [List.length_append, List.length_singleton] at hterminals henters' hall
        rw [List.zipIdx_cons, List.foldl_cons]
        refine ⟨?_, henters.trans henters', hall⟩
        rw [hterminals]
        simp
  exact hfold f.connections [] nodes now f rfl hf hnodes

end Fleet

end ProximityLab
