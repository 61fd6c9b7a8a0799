import ProximityLab.Proofs.Campaign.Commands
import ProximityLab.Proofs.Experiment.Records
import ProximityLab.Proofs.Experiment.TearDown
import ProximityLab.Proofs.Provisioning.Journal
import ProximityLab.Proofs.Provisioning.Terminals

/-!
# The commands of an experiment

What an experiment says to its devices, and in which order (`Experiment.Orderly`):

- **The whole fleet**: the journal goes through phases (`Experiment.Phases`). First all devices are
  provisioned, then each is asked for its identifier and has its clock set, then the start lines are
  sent, and then the stop lines. All lines are in the order of their moments.
- **Each terminal**: a command is tried once at most, in the same order. The stop line is tried only
  on a terminal whose device has taken the start line, and at a moment at which the stop signal has
  been given (`Terminal.Commanded`).

`run_commands`: this holds of all experiments, however they end.
-/

namespace ProximityLab

open Terminal (Says)

/-! ## Lines -/

theorem setTimeLine_ne_stopLine (time : DateTime) : setTimeLine time ≠ stopLine := by
  intro h
  have hhead := congrArg (fun text : String => text.toList.head?) h
  simp [setTimeLine, stopLine] at hhead

theorem startLine_ne_stopLine (params : Params) : startLine params ≠ stopLine := by
  have htexts : ∀ rest : String, "pepper " ++ ("start -d " ++ rest) ≠ stopLine := by
    intro rest h
    have hlist := congrArg String.toList h
    simp [stopLine] at hlist
  unfold startLine Params.startArgs
  simp only [String.append_assoc]
  exact htexts _

/-- The line asks for the identifier or sets the clock. -/
def IsSync (line : String) : Prop := line = uidLine ∨ ∃ time, line = setTimeLine time

/-- The signal has been given by now. -/
def StopSignal.SetBy (s : StopSignal) (origin now : Nat) : Prop :=
  s.initial = true ∨ ∃ d, s.after = some d ∧ origin + d ≤ now

/-- The moment of a stop is one at which its signal has been given. -/
theorem StopSignal.setBy_of_moment {s : StopSignal} {origin start m : Nat}
    (h : s.moment origin start = some m) : s.SetBy origin m := by
  unfold moment at h
  split at h
  · rename_i hinitial
    exact .inl hinitial
  · obtain ⟨d, hd, rfl⟩ := Option.map_eq_some_iff.1 h
    exact .inr ⟨d, hd, Nat.le_max_right _ _⟩

/-! ## One terminal -/

namespace Terminal

/-- Some of these lines were tried on the terminal since it was opened, in their order, and nothing
else. -/
def Heard (lines : List String) (t : Terminal) : Prop := t.attempts.Sublist lines

/-- What was said on a terminal: each command once at most, in this order. The stop line was tried
only if the device had taken the start line, and only at such moments. -/
structure Commanded (params : Params) (stopped : Nat → Prop) (t : Terminal) : Prop where
  order : ∃ time, t.attempts.Sublist [uidLine, setTimeLine time, startLine params, stopLine]
  taken : t.sent.Sublist t.attempts
  stop : ∀ a ∈ t.trials, a.line = stopLine → startLine params ∈ t.sent ∧ stopped a.time

variable {lines lines' : List String} {params : Params} {stopped : Nat → Prop} {time : DateTime}
  {first last m : Nat} {t t' : Terminal}

theorem Heard.opened (now : Nat) (b : Behaviour) : Heard [] (opened now b) := .slnil

theorem Heard.mono (h : Heard lines t) (hsub : lines.Sublist lines') : Heard lines' t :=
  h.trans hsub

theorem Heard.append (h : Heard lines t) (hs : Says lines' first last t t') :
    Heard (lines ++ lines') t' := by
  obtain ⟨trials, htrials, hlines, -⟩ := hs
  unfold Heard Terminal.attempts at h ⊢
  rw [htrials, List.map_append]
  exact h.append hlines

/-- Nothing of what was said before is the stop line. -/
theorem Heard.line_ne_stopLine (h : Heard [uidLine, setTimeLine time, startLine params] t) :
    ∀ a ∈ t.trials, a.line ≠ stopLine := by
  intro a ha hstop
  have hline := h.subset (List.mem_map_of_mem ha)
  simp only [List.mem_cons, List.not_mem_nil, or_false] at hline
  rcases hline with hline | hline | hline <;> rw [hstop] at hline
  · exact absurd hline (by decide)
  · exact setTimeLine_ne_stopLine time hline.symm
  · exact startLine_ne_stopLine params hline.symm

/-- The stop line comes after all other lines, at the moment of the stop. -/
theorem Heard.commanded_of_stop (h : Heard [uidLine, setTimeLine time, startLine params] t)
    (hs : Says [stopLine] m m t t')
    (hstop : t'.trials ≠ t.trials → startLine params ∈ t.sent ∧ stopped m) :
    Commanded params stopped t' := by
  refine ⟨⟨time, h.append hs⟩, t'.sent_sublist_attempts, fun a ha hline => ?_⟩
  obtain ⟨trials, htrials, -, hwithin⟩ := hs
  rw [htrials] at ha hstop
  rcases List.mem_append.1 ha with hold | hnew
  · exact absurd hline (h.line_ne_stopLine a hold)
  · have hne : t.trials ++ trials ≠ t.trials := by
      simpa using List.ne_nil_of_mem hnew
    obtain ⟨hstart, hstopped⟩ := hstop hne
    have htime : a.time = m := Nat.le_antisymm
      (hwithin.le_last _ (List.mem_map_of_mem hnew)) (hwithin.first_le _ (List.mem_map_of_mem hnew))
    have hsent : t'.sent = t.sent ++ (trials.filter (·.taken)).map (·.line) := by
      simp [Terminal.sent, htrials]
    exact ⟨hsent ▸ List.mem_append_left _ hstart, htime ▸ hstopped⟩

/-- Before the stop line is tried, the order is all there is to say. -/
theorem Heard.commanded (h : Heard lines t)
    (hsub : lines.Sublist [uidLine, setTimeLine time, startLine params]) :
    Commanded params stopped t :=
  (h.mono hsub).commanded_of_stop (.refl t (Nat.le_refl 0) _) fun h => absurd rfl h

theorem Commanded.congr (h : Commanded params stopped t) (htrials : t'.trials = t.trials) :
    Commanded params stopped t' := by
  obtain ⟨horder, htaken, hstop⟩ := h
  constructor <;> simpa only [Terminal.attempts, Terminal.sent, htrials]

end Terminal

namespace Experiment

open Terminal (Heard Commanded)

/-! ## Synchronisation -/

/-- The lines that ask for an identifier and then set a clock. -/
def IsSyncing (lines : List String) : Prop := ∃ time, lines = [uidLine, setTimeLine time]

theorem says_identify (limit : TimeSpan) {now horizon : Nat} (n : Node) (h : now ≤ horizon) :
    let r := identify limit now horizon n
    r.2.1 ≤ horizon ∧ Says [uidLine] now r.2.1 n.terminal r.2.2.terminal := by
  obtain ⟨hnow, hterminal⟩ := identify_station limit now horizon n
  dsimp only
  rw [hnow, hterminal]
  exact (Talk.says_uid limit ⟨now, horizon, n.terminal⟩).said h

theorem says_adjust (limit : TimeSpan) (time : DateTime) {now horizon : Nat} (n : Node)
    (h : now ≤ horizon) :
    let r := adjust limit time now horizon n
    r.2.1 ≤ horizon ∧ Says [setTimeLine time] now r.2.1 n.terminal r.2.2.terminal := by
  obtain ⟨hnow, hterminal⟩ := adjust_station limit time now horizon n
  dsimp only
  rw [hnow, hterminal]
  exact (Talk.says_command limit (setTimeLine time) ⟨now, horizon, n.terminal⟩).said h

/-- The devices are synchronised in turn. Wherever that breaks off, nothing else was said. -/
theorem inTurn_syncAll (limit : TimeSpan) (o : Circumstances) {now : Nat} (nodes : List Node)
    (h : now ≤ o.horizon) :
    let r := syncAll limit o now nodes
    r.2.1 ≤ o.horizon ∧
      Fleet.InTurn IsSyncing now r.2.1 (nodes.map (·.terminal)) r.2.2 := by
  induction nodes generalizing now with
  | nil => exact ⟨h, .nil (Nat.le_refl now)⟩
  | cons n ns ih =>
    have hrest : ∀ m, Fleet.InTurn IsSyncing m m (ns.map (·.terminal)) ns := fun m =>
      .refl ⟨o.clock now, rfl⟩ m ns
    have hid := says_identify limit n h
    intro r
    unfold r syncAll
    split <;> rename_i hidentify <;> rw [hidentify] at hid <;> obtain ⟨hnow, hid⟩ := hid
    · exact ⟨hnow, .cons ⟨o.clock now, rfl⟩ (hid.mono (by simp)) (hrest _)⟩
    · rename_i now' n'
      have hadj := says_adjust limit (o.clock now') n' hnow
      split <;> rename_i hadjust <;> rw [hadjust] at hadj <;> obtain ⟨hnow', hadj⟩ := hadj
      · exact ⟨hnow', .cons ⟨o.clock now', rfl⟩ (hid.trans hadj) (hrest _)⟩
      · obtain ⟨hhorizon, hturn⟩ := ih hnow'
        exact ⟨hhorizon, .cons ⟨o.clock now', rfl⟩ (hid.trans hadj) hturn⟩

/-! ## Provisioning -/

/-- Nothing was said on any terminal of the fleet. -/
structure Unaddressed (f : Fleet) : Prop where
  accurate : f.Accurate
  silent : f.Silent
  unheard : ∀ conn ∈ f.connections, Heard [] conn.terminal

variable {σ : Type} {c : Configuration} {src : EnvironmentSource σ} {o : Circumstances} {state : σ}
  {tool : FirmwareTool} {fs : FileSystem} {k : Course σ}

theorem Unaddressed.new (tool : FirmwareTool) (recipe : Recipe) (files : FileSystem) :
    Unaddressed (.new tool recipe files) :=
  ⟨.new tool recipe files, by simp [Fleet.Silent, Fleet.new], by simp [Fleet.new]⟩

/-- Provisioning says nothing to the devices. -/
theorem Unaddressed.provisionAll {f : Fleet} (h : Unaddressed f) (c : Configuration) (now : Nat)
    (es : List Environment) : Unaddressed (provisionAll c now es f).2 := by
  have hunheard : f.Holds (Heard []) f.tool := ⟨rfl, h.unheard⟩
  have hall := hunheard.provisionAll (fun t ht => ht) (fun _ _ _ b _ _ => .opened now b) c es
  exact ⟨(Fleet.Accurate.invariant now).provisionAll h.accurate fun _ _ _ _ _ => trivial,
    (Fleet.Silent.invariant now).provisionAll h.silent fun _ _ _ _ _ => trivial, hall.each⟩

theorem Provisions.unaddressed {es : List Environment} {now : Nat} {state' : σ}
    {attempt : Attempt Unit} {f : Fleet}
    (h : Provisions c src o (outset c tool state fs o) es now state' attempt f) :
    Unaddressed f := by
  obtain ⟨files, -, hp⟩ := h.provisioned
  have hall := (Unaddressed.new tool c.recipe files).provisionAll c now es
  change provisionAll c now es (.new tool c.recipe files) = _ at hp
  rwa [hp] at hall

/-- The terminals of all environments are open. -/
theorem Provisions.opened {es : List Environment} {now : Nat} {state' : σ} {f : Fleet}
    (h : Provisions c src o (outset c tool state fs o) es now state' (.done ()) f) {i : Nat}
    (hi : i < es.length) :
    .opened i ∈ f.journal := by
  have hlength := h.equipped.length_eq
  obtain ⟨files, -, hp⟩ := h.provisioned
  have hcustody := custody_provisionAll c now es (Fleet.Custody.new tool c.recipe files)
  change provisionAll c now es (.new tool c.recipe files) = _ at hp
  rw [hp] at hcustody
  have hone : f.journal.count (.opened i) = 1 := by
    rw [hcustody.openings i, Fleet.opens, if_pos (hlength ▸ hi)]
  exact List.count_pos_iff.1 (hone ▸ Nat.one_pos)

theorem terminal_nodesOf {es : List Environment} {f : Fleet}
    (h : es.length = f.connections.length) :
    (nodesOf es f).map (·.terminal) = f.terminals := by
  unfold nodesOf Fleet.terminals
  generalize f.connections = cs at h
  induction es generalizing cs with
  | nil =>
    obtain rfl := List.length_eq_zero_iff.1 h.symm
    rfl
  | cons e es ih =>
    cases cs with
    | nil => cases h
    | cons conn cs => simpa [Node.new] using ih cs (by simpa using h)

/-! ## The phases of an experiment -/

/-- The journal of an experiment in parts, one for each phase. -/
structure Phases where
  /-- Provisioning. -/
  setup : List Event
  sync : List Event
  starts : List Event
  stops : List Event
  /-- Closing and release. -/
  rest : List Event

/-- The parts make up the journal, and in each the lines of its phase were sent and no others. -/
structure Phases.Of (ph : Phases) (params : Params) (journal : List Event) : Prop where
  whole : journal = ph.setup ++ ph.sync ++ ph.starts ++ ph.stops ++ ph.rest
  setup : ∀ e ∈ ph.setup, e.isSent = false
  sync : AreLines IsSync ph.sync
  starts : AreLines (· = startLine params) ph.starts
  stops : AreLines (· = stopLine) ph.stops
  rest : ∀ e ∈ ph.rest, e.isSent = false

/-- What an experiment has said by now. Nothing was tried on any terminal unless all environments
that were reserved have been classified and provisioned, and then their terminals were opened before
anything else. -/
structure Orderly (c : Configuration) (src : EnvironmentSource σ) (state : σ) (fs : FileSystem)
    (o : Circumstances) (ph : Phases) (f : Fleet) (now : Nat) : Prop where
  phases : ph.Of c.params f.journal
  /-- The journal has just the lines that the devices have taken, with their moments. -/
  accurate : f.Accurate
  /-- The lines were sent in the order of the journal, and by now. -/
  chronology : ∃ first, Within first now (moments f.journal)
  /-- When the stop line was tried, the stop signal had been given. -/
  commanded : ∀ conn ∈ f.connections,
    Commanded c.params (fun m => o.stop.SetBy o.start m ∧ m ≤ now) conn.terminal
  provisioned : (∃ conn ∈ f.connections, conn.terminal.attempts ≠ []) →
    ∃ es now state', src.reserve fs o.start o.horizon state = (.environments es, now, state') ∧
      c.minNodes ≤ es.length ∧ Equipped c es f ∧ ∀ i < es.length, .opened i ∈ ph.setup

theorem Unaddressed.orderly {f : Fleet} (h : Unaddressed f) (now : Nat) :
    Orderly c src state fs o ⟨f.journal, [], [], [], []⟩ f now where
  phases := ⟨by simp, h.silent, areLines_nil _, areLines_nil _, areLines_nil _, by simp⟩
  accurate := h.accurate
  chronology := ⟨now, moments_of_silent h.silent ▸ .nil (Nat.le_refl now)⟩
  commanded conn hconn :=
    (h.unheard conn hconn).commanded (List.nil_sublist [uidLine, setTimeLine (o.clock now), _])
  provisioned := by
    rintro ⟨conn, hconn, htried⟩
    exact absurd (List.sublist_nil.1 (h.unheard conn hconn)) htried

/-- What was said since all devices are provisioned. -/
theorem Provisions.orderly {es : List Environment} {now first now' : Nat} {state' : σ} {f g : Fleet}
    {sync starts stops : List Event}
    (h : Provisions c src o (outset c tool state fs o) es now state' (.done ()) f)
    (hjournal : g.journal = f.journal ++ sync ++ starts ++ stops) (hsync : AreLines IsSync sync)
    (hstarts : AreLines (· = startLine c.params) starts) (hstops : AreLines (· = stopLine) stops)
    (hwithin : Within first now' (moments sync ++ moments starts ++ moments stops))
    (haccurate : g.Accurate) (hequipped : Equipped c es g)
    (hcommanded : ∀ conn ∈ g.connections,
      Commanded c.params (fun m => o.stop.SetBy o.start m ∧ m ≤ now') conn.terminal) :
    Orderly c src state fs o ⟨f.journal, sync, starts, stops, []⟩ g now' where
  phases := ⟨by simpa using hjournal, h.unaddressed.silent, hsync, hstarts, hstops, by simp⟩
  accurate := haccurate
  chronology := ⟨first, by
    simpa [hjournal, moments_append, moments_of_silent h.unaddressed.silent] using hwithin⟩
  commanded := hcommanded
  provisioned _ := ⟨es, now, state', h.reserved, h.enough, hequipped, fun _ => h.opened⟩

/-! ## Up to the end of the campaign -/

/-- What the synchronisation has said between two moments, wherever it broke off. -/
structure Addressed (first last : Nat) (f g : Fleet) (nodes : List Node) : Prop where
  terminals : g.terminals = nodes.map (·.terminal)
  enters : Fleet.Enters IsSync first last f g
  accurate : g.Accurate
  heard : ∀ n ∈ nodes, ∃ time, Heard [uidLine, setTimeLine time] n.terminal

theorem Provisions.addressed {es : List Environment} {now now' : Nat} {state' : σ} {f : Fleet}
    {result : Except Breakoff Unit} {nodes : List Node}
    (h : Provisions c src o (outset c tool state fs o) es now state' (.done ()) f)
    (hsync : syncAll c.commandSpan o (now + c.settleSpan.millisUp) (nodesOf es f) =
      (result, now', nodes))
    (hsettled : now + c.settleSpan.millisUp ≤ o.horizon) :
    now' ≤ o.horizon ∧
      Addressed (now + c.settleSpan.millisUp) now' f (f.takeBack nodes) nodes := by
  have hunaddressed := h.unaddressed
  obtain ⟨hnow, hturn⟩ := inTurn_syncAll c.commandSpan o (nodesOf es f) hsettled
  rw [hsync, terminal_nodesOf h.equipped.length_eq] at hturn
  rw [hsync] at hnow
  obtain ⟨hback, henters, haccurate⟩ :=
    Fleet.takeBack_spec (P := IsSync) hunaddressed.accurate hturn
      (by rintro _ ⟨time, rfl⟩; simp [IsSync])
  refine ⟨hnow, hback, henters, haccurate, ?_⟩
  refine forall_mem_of_forall₂ (P := Heard []) hturn.each (fun t ht => ?_) fun t n ht hsaid => ?_
  · obtain ⟨conn, hconn, rfl⟩ := List.mem_map.1 ht
    exact hunaddressed.unheard conn hconn
  · obtain ⟨_, _, _, ⟨time, rfl⟩, hsaid⟩ := hsaid
    exact ⟨time, ht.append hsaid⟩

/-- A property of the terminals of the nodes that have come back is one of the terminals of the
fleet. -/
theorem forall_connections {P : Terminal → Prop} {f : Fleet} {nodes : List Node}
    (h : f.terminals = nodes.map (·.terminal)) (hP : ∀ n ∈ nodes, P n.terminal) :
    ∀ conn ∈ f.connections, P conn.terminal := by
  intro conn hconn
  have hmem : conn.terminal ∈ f.terminals := List.mem_map_of_mem hconn
  rw [h] at hmem
  obtain ⟨n, hn, heq⟩ := List.mem_map.1 hmem
  exact heq ▸ hP n hn

/-- An experiment that breaks off between the synchronisation and the campaign has not started any
device. -/
theorem Provisions.orderly_synced {es : List Environment} {now now' : Nat} {state' : σ} {f : Fleet}
    {result : Except Breakoff Unit} {nodes : List Node}
    (h : Provisions c src o (outset c tool state fs o) es now state' (.done ()) f)
    (hsync : syncAll c.commandSpan o (now + c.settleSpan.millisUp) (nodesOf es f) =
      (result, now', nodes))
    (hsettled : now + c.settleSpan.millisUp ≤ o.horizon) :
    ∃ ph, Orderly c src state fs o ph (f.takeBack nodes) now' := by
  obtain ⟨-, haddressed⟩ := h.addressed hsync hsettled
  obtain ⟨sync, hjournal, hlines, hwithin⟩ := haddressed.enters
  refine ⟨_, h.orderly (by simpa using hjournal) hlines (areLines_nil _) (areLines_nil _)
    (by simpa [moments] using hwithin) haddressed.accurate (h.equipped.takeBack nodes)
    (forall_connections haddressed.terminals fun n hn => ?_)⟩
  obtain ⟨time, hheard⟩ := haddressed.heard n hn
  exact hheard.commanded (t := n.terminal)
    (List.sublist_append_left [uidLine, setTimeLine time] [_])

/-- An experiment has said what it should, in the right order, until the campaign has ended. -/
theorem Executes.orderly {result : Except Breakoff (List Node)}
    (h : Executes c src o (outset c tool state fs o) result k) :
    ∃ ph, Orderly c src state fs o ph k.fleet k.now := by
  cases h with
  | unreserved => exact ⟨_, (Unaddressed.new tool c.recipe fs).orderly _⟩
  | tooFew => exact ⟨_, (Unaddressed.new tool c.recipe fs).orderly _⟩
  | @noLogDir _ _ _ _ files => exact ⟨_, (Unaddressed.new tool c.recipe files).orderly _⟩
  | unprovisioned hp => exact ⟨_, hp.unaddressed.orderly _⟩
  | unsettled hp => exact ⟨_, hp.unaddressed.orderly _⟩
  | unsynced hp hsync hsettled => exact hp.orderly_synced hsync hsettled
  | unslacked hp hsync _ hsettled => exact hp.orderly_synced hsync hsettled
  | @campaigned es now now' state' f nodes slack r hp hsync hslack hrun hsettled =>
    obtain ⟨hnow, haddressed⟩ := hp.addressed hsync hsettled
    have hlater : ∀ m ∈ o.stop.moment o.start now', now' ≤ m := fun m hm => StopSignal.le_moment hm
    obtain ⟨hstart, m, hm, hlast, hstop⟩ :=
      Campaign.says_run ⟨c.params, slack, c.graceSpan⟩ nodes hnow hlater
    rw [hrun] at hstart hlast hstop
    -- the start lines are entered first
    have hstarted : Fleet.InTurn (· = [startLine c.params]) now' now' (f.takeBack nodes).terminals
        r.started := by
      rw [haddressed.terminals]
      exact .of_forall₂ rfl (List.forall₂_map_left_iff.2 hstart)
    obtain ⟨hterminals, ⟨starts, hjournal₂, hstarts, hwithin₂⟩, haccurate⟩ :=
      Fleet.takeBack_spec (P := (· = startLine c.params)) haddressed.accurate hstarted (by simp)
    have hstopped : Fleet.InTurn (· = [stopLine]) m m
        ((f.takeBack nodes).takeBack r.started).terminals r.nodes := by
      rw [hterminals]
      refine .of_forall₂ rfl (List.forall₂_map_left_iff.2 (hstop.imp fun n n' hstops => ?_))
      exact hstops.lines
    obtain ⟨hterminals, ⟨stops, hjournal₃, hstops, hwithin₃⟩, haccurate⟩ :=
      Fleet.takeBack_spec (P := (· = stopLine)) haccurate hstopped (by simp)
    obtain ⟨sync, hjournal₁, hlines, hwithin₁⟩ := haddressed.enters
    have hwithin : Within (now + c.settleSpan.millisUp) r.time
        (moments sync ++ moments starts ++ moments stops) := by
      have hpause : Within now' m [] := .nil hm
      have hrest : Within m r.time [] := .nil hlast
      simpa using (((hwithin₁.append hwithin₂).append hpause).append hwithin₃).append hrest
    have hheard : ∀ n ∈ r.started,
        ∃ time, Heard [uidLine, setTimeLine time, startLine c.params] n.terminal :=
      forall_mem_of_forall₂ hstart haddressed.heard fun n n' ⟨time, hn⟩ hsaid =>
        ⟨time, hn.append hsaid⟩
    have hcommanded : ∀ n ∈ r.nodes,
        Commanded c.params (fun m => o.stop.SetBy o.start m ∧ m ≤ r.time) n.terminal := by
      refine forall_mem_of_forall₂ hstop hheard fun n n' ⟨time, hn⟩ hstops => ?_
      refine hn.commanded_of_stop hstops.lines fun htried => ?_
      obtain ⟨hmem, hmoment⟩ := hstops.stop htried
      exact ⟨hmem, StopSignal.setBy_of_moment hmoment, hlast⟩
    exact ⟨_, hp.orderly (by rw [hjournal₃, hjournal₂, hjournal₁]) hlines hstarts hstops hwithin
      haccurate (((hp.equipped.takeBack nodes).takeBack r.started).takeBack r.nodes)
      (forall_connections hterminals hcommanded)⟩

/-! ## The whole experiment -/

/-- What is done behind the last line changes nothing of what was said. -/
theorem Orderly.rest {ph : Phases} {f g : Fleet} {now : Nat} {l : List Event}
    (h : Orderly c src state fs o ph f now) (hjournal : g.journal = f.journal ++ l)
    (hl : ∀ e ∈ l, e.isSent = false) (haccurate : g.Accurate) (hgrows : f.Grows g [] [])
    (hsame : ∀ conn ∈ g.connections,
      ∃ old ∈ f.connections, conn.terminal.trials = old.terminal.trials) :
    Orderly c src state fs o { ph with rest := ph.rest ++ l } g now where
  phases := by
    refine ⟨?_, h.phases.setup, h.phases.sync, h.phases.starts, h.phases.stops,
      List.forall_mem_append.2 ⟨h.phases.rest, hl⟩⟩
    rw [hjournal, h.phases.whole, List.append_assoc]
  accurate := haccurate
  chronology := by
    rw [hjournal, moments_append, moments_of_silent hl, List.append_nil]
    exact h.chronology
  commanded conn hconn := by
    obtain ⟨old, hold, htrials⟩ := hsame conn hconn
    exact (h.commanded old hold).congr htrials
  provisioned := by
    rintro ⟨conn, hconn, htried⟩
    obtain ⟨old, hold, htrials⟩ := hsame conn hconn
    have htried' : old.terminal.attempts ≠ [] := by rwa [Terminal.attempts, ← htrials]
    obtain ⟨es, now', state', hreserve, henough, hequipped, hopened⟩ :=
      h.provisioned ⟨old, hold, htried'⟩
    exact ⟨es, now', state', hreserve, henough, hequipped.grows hgrows, hopened⟩

theorem Orderly.close {f : Fleet} {ph : Phases} {now : Nat}
    (h : Orderly c src state fs o ph f now) (i : Nat) :
    ∃ ph, Orderly c src state fs o ph (f.close i) now := by
  have haccurate := h.accurate.close i
  have hgrows := Fleet.Grows.close f i
  unfold Fleet.close at haccurate hgrows ⊢
  split at haccurate <;> rename_i conn hconn <;> rw [hconn] at hgrows
  · exact ⟨ph, h⟩
  · refine ⟨_, h.rest rfl (by simp [Event.isSent, Event.moment?]) haccurate hgrows
      fun conn' hconn' => ?_⟩
    rcases List.mem_or_eq_of_mem_set hconn' with hold | rfl
    · exact ⟨conn', hold, rfl⟩
    · exact ⟨conn, List.mem_of_getElem? hconn, rfl⟩

theorem Orderly.enduring (c : Configuration) (src : EnvironmentSource σ) (state : σ)
    (fs : FileSystem) (o : Circumstances) (now : Nat) :
    Fleet.Enduring fun f => ∃ ph, Orderly c src state fs o ph f now where
  enlist f registry := fun ⟨ph, h⟩ =>
    ⟨_, h.rest (l := []) (List.append_nil _).symm (by simp) h.accurate
      ((Fleet.Grows.enduring f).enlist f registry (.refl f)) fun conn hconn => ⟨conn, hconn, rfl⟩⟩
  close _ i := fun ⟨_, h⟩ => h.close i

theorem orderly_tearDown (h : ∃ ph, Orderly c src state fs o ph k.fleet k.now) :
    ∃ ph, Orderly c src state fs o ph (tearDown src k).fleet (tearDown src k).now := by
  obtain ⟨ph, hclosed⟩ := (Orderly.enduring c src state fs o k.now).closeAll h
  refine ⟨_, hclosed.rest (l := [.released]) rfl (by simp [Event.isSent, Event.moment?])
    (fun i => ?_)
    ⟨(List.append_nil _).symm, (List.append_nil _).symm, rfl⟩ fun conn hconn => ⟨conn, hconn, rfl⟩⟩
  refine Eq.trans ?_ (hclosed.accurate i)
  simp [tearDown, linesTo, Event.trial?]

/-- However an experiment ends, it has said to its devices what it should, in the right order. -/
theorem run_commands (c : Configuration) (tool : FirmwareTool) (src : EnvironmentSource σ)
    (state : σ) (fs : FileSystem) (o : Circumstances) :
    ∃ ph, Orderly c src state fs o ph (run c tool src state fs o).course.fleet
      (run c tool src state fs o).course.now := by
  rcases hexec : execute c src o (outset c tool state fs o) with ⟨b | nodes, k⟩
  · have hk := (executes hexec).orderly
    rw [run_of_error hexec]
    dsimp only
    split
    · exact hk
    · exact orderly_tearDown hk
  · obtain ⟨ph, h⟩ := orderly_tearDown (executes hexec).orderly
    rw [run_of_ok hexec]
    exact ⟨_, h.rest (l := []) (List.append_nil _).symm (by simp) h.accurate
      ⟨(List.append_nil _).symm, (List.append_nil _).symm, rfl⟩ fun conn hconn =>
        ⟨conn, hconn, rfl⟩⟩

/-- One device does not answer the start line, and the other does not get it. When the signal comes,
only the first is stopped, at the moment of the signal. -/
theorem run_commands_refused :
    let c := { Configuration.default with settleDelay := 0 }
    let respond (node line : String) : Reply :=
      if line ≠ startLine c.params then .accepted [⟨2, .line prompt⟩]
      else if node = "2" then .refused (.io "stuck") else .accepted []
    let tool : FirmwareTool :=
      { build := fun _ fs _ => (.done (), fs)
        openTerminal := fun _ fs call =>
          (.done ⟨[], fun _ => respond call.node, none, fun _ => []⟩, fs) }
    let board (index : String) : Environment := .set .empty Environment.indexVar index
    let src : EnvironmentSource Unit :=
      { reserve := fun _ now _ _ => (.environments [board "1", board "2"], now, ())
        release := fun _ => (.ok (), ()) }
    let time : DateTime := ⟨2024, 1, 1, 0, 0, 0⟩
    let o : Circumstances := ⟨0, 100000, fun _ => time, ⟨false, some 17⟩⟩
    let k := (run c tool src () .empty o).course
    (∃ ph, Orderly c src () .empty o ph k.fleet k.now) ∧
      k.fleet.journal =
        [.opened 0, .opened 1,
          .sent 0 0 uidLine, .sent 0 2 (setTimeLine time),
          .sent 1 4 uidLine, .sent 1 6 (setTimeLine time),
          .sent 0 8 (startLine c.params), .sent 0 17 stopLine,
          .closed 0, .closed 1, .released] := by
  intro c respond tool board src time o k
  exact ⟨run_commands c tool src () .empty o, by decide +kernel⟩

end Experiment

end ProximityLab
