import ProximityLab.Proofs.Experiment.Cases
import ProximityLab.Proofs.Experiment.Readiness
import ProximityLab.Proofs.Provisioning.Terminals

/-!
# Late replies

A reply that comes too late for its command is read by whoever reads next. `Experiment.run_reads`
says what that means for the results of an experiment with devices that answer each line with one
reply. The two replies in front of the campaign decide (`Behaviour.Punctual`):

- If both come within the limit of a command, each node reads the reply to its start line, and
  completes with the prompt of that reply.
- If one of them is late, no line of the reply to the start line is read. The node may complete all
  the same, with the prompt of a late reply.
-/

namespace ProximityLab

namespace Experiment

variable {now settle : Nat} {n : Node}

/-! ## The campaign -/

/-- The lines of a reply, the prompt included. -/
def linesIn (reply : List Timed) : List String := reply.filterMap (·.output.line?)

/-- What is left of a reply has lines of the reply. -/
theorem linesOf_suffix {reply : List Timed} {queue : List Due}
    (h : queue.map (·.output) <:+ reply.map (·.output)) : linesOf queue <:+ linesIn reply := by
  have hlines := h.filterMap Output.line?
  rwa [List.filterMap_map, List.filterMap_map] at hlines

/-- The lines in front of the prompt of a reply. -/
theorem linesOf_front {reply : List Timed} {front : List Due} {last : Due}
    (h : (front ++ [last]).map (·.output) = reply.map (·.output))
    (hlast : last.output.ending? = some .prompt) :
    linesOf front <+: linesIn reply ∧ linesOf front = (linesIn reply).dropLast := by
  obtain ⟨text, htext⟩ : ∃ text, last.output.line? = some text := by
    cases ho : last.output with
    | line text => exact ⟨text, rfl⟩
    | eof => simp [ho, Output.ending?] at hlast
    | fault cause => simp [ho, Output.ending?] at hlast
  have hlines : linesIn reply = linesOf front ++ [text] := by
    have heq := congrArg (List.filterMap Output.line?) h
    rw [List.filterMap_map, List.filterMap_map] at heq
    rw [linesIn]
    refine heq.symm.trans ?_
    rw [List.filterMap_append, linesOf]
    simp [htext]
  rw [hlines]
  exact ⟨List.prefix_append _ _, List.dropLast_concat.symm⟩

/-- What a node brings back from a campaign in which these lines were read. -/
structure Reads (c : Configuration) (time : DateTime) (lines : List String) (n : Node) : Prop where
  attempts : ∃ stops, (stops = [] ∨ stops = [stopLine]) ∧
    n.terminal.attempts = uidLine :: setTimeLine time :: startLine c.params :: stops
  gains : Gains lines n
  /-- The lines are those of the reply to the start line, up to its prompt if the node completes. -/
  punctual : n.terminal.behaviour.Punctual c.commandSpan time →
    let reply :=
      linesIn (n.terminal.behaviour.reply [uidLine, setTimeLine time] (startLine c.params))
    lines <+: reply ∧
      (n.record.outcome = some .completed → lines = reply.dropLast ∧ n.terminal.queue = [])
  /-- The lines are those of a late reply. If the node completes, the reply to the start line has
  not been read at all. -/
  late : ¬ n.terminal.behaviour.Punctual c.commandSpan time →
    (lines <:+: linesIn (n.terminal.behaviour.reply [] uidLine) ∨
      lines <:+: linesIn (n.terminal.behaviour.reply [uidLine] (setTimeLine time))) ∧
    (n.record.outcome = some .completed →
      (n.terminal.behaviour.reply [uidLine, setTimeLine time] (startLine c.params)).map
      (·.output) <:+
        n.terminal.queue.map (·.output))

/-- What a node brings back when its terminal was closed before anything was sent. -/
structure Unreached (n : Node) : Prop where
  attempts : n.terminal.attempts = []
  gains : Gains [] n
  outcome : n.record.outcome ≠ some .completed

section Campaign

variable {c : Configuration} {k : Campaign} (hk : k.params = c.params) {cut : Nat}
  {stop : Option Nat} {time : DateTime}
include hk

/-- The campaign of a node whose clock was set, when the first prompt to come is behind the lines
`front`. -/
theorem resolve_adjusted (hblank : n.record.Blank)
    (h : n.terminal.Adjusted settle c.commandSpan time) {front rest : List Due} {last : Due}
    (hq : Terminal.enqueue now (n.terminal.behaviour.reply [uidLine, setTimeLine time]
      (startLine c.params)) n.terminal.queue = front ++ last :: rest)
    (hfront : ∀ d ∈ front, d.output.ending? = none) (hlast : last.output.ending? = some .prompt) :
    let n' := k.resolve now cut stop n
    n'.terminal.behaviour = n.terminal.behaviour ∧
      (∃ stops, (stops = [] ∨ stops = [stopLine]) ∧
        n'.terminal.attempts = uidLine :: setTimeLine time :: startLine c.params :: stops) ∧
      ∃ lines, Gains lines n' ∧ lines <+: linesOf front ∧
        (n'.record.outcome = some .completed →
          lines = linesOf front ∧ n'.terminal.queue = rest) := by
  have hr := h.answers.accepts [uidLine, setTimeLine time] (startLine c.params)
  generalize n.terminal.behaviour.reply [uidLine, setTimeLine time] (startLine c.params) =
    items at hq hr
  rw [← h.attempts, ← hk] at hr
  obtain ⟨⟨stops, hstops, hattempts⟩, hread⟩ :=
    k.resolve_prompted h.closed hr hq hfront hlast hblank
  rw [h.attempts, hk] at hattempts
  exact ⟨(k.follows_resolve now cut stop n).behaviour, ⟨stops, hstops, hattempts⟩, hread⟩

/-- If both replies have come in time, the campaign reads the reply to the start line. -/
theorem reads_of_punctual (hblank : n.record.Blank)
    (h : n.terminal.Adjusted settle c.commandSpan time)
    (hp : n.terminal.behaviour.Punctual c.commandSpan time) :
    ∃ lines, Reads c time lines (k.resolve now cut stop n) := by
  have hreply := h.answers.replies [uidLine, setTimeLine time] (startLine c.params)
  obtain ⟨front, last, hsplit, hfront, hlast⟩ := (remains_schedule hreply now 0).split hreply
  have hq : Terminal.enqueue now
      (n.terminal.behaviour.reply [uidLine, setTimeLine time] (startLine c.params))
        n.terminal.queue = front ++ last :: [] := by
    rw [h.punctual hp]
    exact hsplit
  obtain ⟨hb, hattempts, lines, hgains, hlines, hcompleted⟩ :=
    resolve_adjusted hk hblank h hq hfront hlast
  obtain ⟨hlead, hall⟩ := linesOf_front (hsplit ▸ schedule_output now 0 _) hlast
  refine ⟨lines, hattempts, hgains, ?_, ?_⟩
  · rw [hb]
    exact fun _ => ⟨hlines.trans hlead, fun ho => ⟨(hcompleted ho).1.trans hall, (hcompleted ho).2⟩⟩
  · rw [hb]
    exact fun hlate => absurd hp hlate

/-- If the end of a late reply is still there, the campaign reads that. -/
theorem reads_of_late (hblank : n.record.Blank)
    (h : n.terminal.Adjusted settle c.commandSpan time)
    (hp : ¬ n.terminal.behaviour.Punctual c.commandSpan time) :
    ∃ lines, Reads c time lines (k.resolve now cut stop n) := by
  obtain ⟨earlier, hearlier, hown, hsource⟩ : ∃ earlier, IsReply earlier ∧
      Owing earlier n.terminal.queue ∧ ∀ lines, lines <:+: linesIn earlier →
        lines <:+: linesIn (n.terminal.behaviour.reply [] uidLine) ∨
          lines <:+: linesIn (n.terminal.behaviour.reply [uidLine] (setTimeLine time)) := by
    rcases h.late hp with hown | hown
    · exact ⟨_, h.answers.replies _ _, hown, fun _ => .inl⟩
    · exact ⟨_, h.answers.replies _ _, hown, fun _ => .inr⟩
  obtain ⟨left, rest, hqueue, hremains⟩ := hown
  obtain ⟨front, last, rfl, hfront, hlast⟩ := hremains.split hearlier
  have hq : Terminal.enqueue now
      (n.terminal.behaviour.reply [uidLine, setTimeLine time] (startLine c.params))
        n.terminal.queue =
        front ++ last :: (rest ++ schedule now (Terminal.lastDue n.terminal.queue)
          (n.terminal.behaviour.reply [uidLine, setTimeLine time] (startLine c.params))) := by
    rw [Terminal.enqueue]
    simp [hqueue]
  obtain ⟨hb, hattempts, lines, hgains, hlines, hcompleted⟩ :=
    resolve_adjusted hk hblank h hq hfront hlast
  have hinfix : lines <:+: linesIn earlier := by
    have hfront : linesOf front <+: linesOf (front ++ [last]) :=
      linesOf_append front [last] ▸ List.prefix_append _ _
    exact (hlines.trans hfront).isInfix.trans (linesOf_suffix hremains.2).isInfix
  refine ⟨lines, hattempts, hgains, ?_, ?_⟩
  · rw [hb]
    exact fun hpunctual => absurd hpunctual hp
  · rw [hb]
    refine fun _ => ⟨hsource lines hinfix, fun ho => ?_⟩
    rw [(hcompleted ho).2, List.map_append, schedule_output]
    exact List.suffix_append _ _

/-- However a ready node leaves a campaign, it says what was read. -/
theorem Ready.reads (h : Ready settle c.commandSpan n) :
    Unreached (k.resolve now cut stop n) ∨
      ∃ time lines, Reads c time lines (k.resolve now cut stop n) := by
  obtain ⟨hclosed, hattempts⟩ | ⟨time, hadj⟩ := h.terminal
  · left
    have hfailed : k.resolve now cut stop n =
        n.finish [] (.failed ChannelError.closed.message) := by
      have hsend : n.terminal.send now (startLine k.params) = (.error .closed, n.terminal) := by
        rw [Terminal.send, if_pos hclosed]
      simp [Campaign.resolve, Campaign.startNode, hsend, Vigil.resolve, Node.withTerminal,
        Node.finish, Outcome.phase]
    rw [hfailed]
    exact ⟨hattempts, gains_finish h.blank _ _, by simp [Node.finish]⟩
  · right
    by_cases hp : n.terminal.behaviour.Punctual c.commandSpan time
    · exact ⟨time, reads_of_punctual hk h.blank hadj hp⟩
    · exact ⟨time, reads_of_late hk h.blank hadj hp⟩

end Campaign

/-! ## The whole experiment -/

theorem unused_nodesOf {f : Fleet} (es : List Environment) {due : Nat}
    (h : ∀ c ∈ f.connections, c.terminal.Fresh settle due) :
    ∀ n ∈ nodesOf es f, Unused settle due n := by
  intro n hn
  obtain ⟨i, hi⟩ := List.mem_iff_getElem?.1 hn
  obtain ⟨e, c, -, hc, rfl⟩ := List.getElem?_zipWith_eq_some.1 hi
  exact ⟨rfl, NodeRecord.blank_new _ _, h c (List.mem_of_getElem? hc)⟩

variable {σ : Type} {c : Configuration} {o : Circumstances} {k k' : Course σ}
  {nodes nodes' : List Node}

theorem reads_campaign (h : campaign c o nodes k = (.ok nodes', k'))
    (hnodes : ∀ n ∈ nodes, Ready settle c.commandSpan n) :
    ∀ n ∈ nodes', Unreached n ∨ ∃ time lines, Reads c time lines n := by
  unfold campaign at h
  split at h
  · cases h
  · rename_i slack _
    dsimp only at h
    split at h
    · rename_i hdone
      have hidle : ∀ n ∈ nodes, n.phase.inFlight = false := fun n hn => by
        rw [(hnodes n hn).idle]
        rfl
      obtain ⟨hr, -⟩ := Prod.mk.inj h
      have hresult := ((Campaign.run_spec _ _ _ _ hidle).2 (by rw [hdone]; simp)).2
      rw [hresult] at hr
      obtain rfl := Except.ok.inj hr
      intro n hn
      obtain ⟨m, hm, rfl⟩ := List.mem_map.1 hn
      exact Ready.reads rfl (hnodes m hm)
    · cases h
    · cases h
    · cases h

theorem reads_operate (h : operate c o nodes k = (.ok nodes', k'))
    (hnodes : ∀ n ∈ nodes, Unused c.settleSpan.millisUp (k.now + c.settleSpan.millisUp) n) :
    ∀ n ∈ nodes', Unreached n ∨ ∃ time lines, Reads c time lines n := by
  unfold operate at h
  dsimp only at h
  split at h
  · cases h
  · rename_i hsettled
    rcases hs : syncAll c.commandSpan o (k.now + c.settleSpan.millisUp) nodes
      with ⟨synced, now, nodes₁⟩
    rw [hs] at h
    dsimp only at h
    split at h
    · cases h
    · exact reads_campaign h (ready_syncAll hs (by omega) hnodes)

theorem reads_conduct {tool : FirmwareTool} {es : List Environment}
    (htool : ∀ calls files call b files', tool.openTerminal calls files call = (.done b, files') →
      b.Answers c.settleSpan.millisUp)
    (hk : k.fleet.Holds (·.Fresh c.settleSpan.millisUp (k.now + c.settleSpan.millisUp)) tool)
    (h : conduct c o es k = (.ok nodes', k')) :
    ∀ n ∈ nodes', Unreached n ∨ ∃ time lines, Reads c time lines n := by
  unfold conduct at h
  generalize k.fleet.files.makeDirs c.logDir = r at h
  obtain ⟨made, files⟩ := r
  dsimp only at h
  split at h
  · cases h
  · have hfiles : Fleet.Holds (·.Fresh c.settleSpan.millisUp (k.now + c.settleSpan.millisUp)) tool
        { k.fleet with files := files } := ⟨hk.tool, hk.each⟩
    have hp := hfiles.provisionAll (fun t ht => ⟨ht.answers, ht.attempts, ht.lines, ht.due⟩)
      (fun calls files call b files' hb =>
        Terminal.fresh_opened (htool calls files call b files' hb) k.now) c es
    generalize provisionAll c k.now es { k.fleet with files := files } = r at h hp
    obtain ⟨_ | _ | _, f⟩ := r
    · exact reads_operate h (unused_nodesOf es hp.each)
    · cases h
    · cases h

theorem reads_execute {tool : FirmwareTool} {src : EnvironmentSource σ}
    (htool : ∀ calls files call b files', tool.openTerminal calls files call = (.done b, files') →
      b.Answers c.settleSpan.millisUp)
    (hk : ∀ P, k.fleet.Holds P tool) (h : execute c src o k = (.ok nodes, k')) :
    ∀ n ∈ nodes, Unreached n ∨ ∃ time lines, Reads c time lines n := by
  unfold execute at h
  generalize src.reserve k.fleet.files k.now o.horizon k.source = r at h
  obtain ⟨reserved, now, state⟩ := r
  cases reserved with
  | failed cause => cases h
  | panicked => cases h
  | hung => cases h
  | environments es =>
    dsimp only at h
    split at h
    · cases h
      simp
    · exact reads_conduct (k := ⟨state, k.fleet, now⟩) htool (hk _) h

/-- What is saved are the records of the nodes. -/
theorem nodes_of_save {fs : FileSystem} {results : Snapshot}
    (h : (save c nodes fs).1 = .finished results) : results.nodes = nodes.map (·.record) := by
  unfold save at h
  split at h
  · rename_i hempty
    rw [List.isEmpty_iff.1 hempty]
    cases h
    rfl
  · dsimp only at h
    split at h
    · cases h
      rfl
    · cases h

/-- An experiment with devices that answer each line with one reply. What a node says is what was
read on the reply to its start line, if the replies before it have come within the limit of a
command. If one of them has not, a late reply is read in its place: the reply to the start line is
not read, also if the node completes. -/
theorem run_reads {tool : FirmwareTool} {src : EnvironmentSource σ} {state : σ} {fs : FileSystem}
    {results : Snapshot}
    (htool : ∀ calls files call b files', tool.openTerminal calls files call = (.done b, files') →
      b.Answers c.settleSpan.millisUp)
    (hend : (run c tool src state fs o).ending = .finished results) :
    ∃ nodes, (execute c src o ⟨state, .new tool c.recipe fs, o.start⟩).1 = .ok nodes ∧
      results.nodes = nodes.map (·.record) ∧
      ∀ n ∈ nodes, Unreached n ∨ ∃ time lines, Reads c time lines n := by
  rcases he : execute c src o ⟨state, .new tool c.recipe fs, o.start⟩ with ⟨b | nodes, k⟩
  · rw [run_of_error he] at hend
    cases b <;> cases hend
  · rw [run_of_ok he] at hend
    refine ⟨nodes, rfl, ?_, reads_execute htool (fun P => Fleet.Holds.new P _ _ _) he⟩
    exact nodes_of_save hend

/-- A device that is late to say that its clock was set. -/
def lateClock : Behaviour :=
  { banner := []
    respond := fun earlier _ =>
      match earlier with
      | [] => .accepted [⟨0, .line "uid DW01"⟩, ⟨0, .line prompt⟩]
      | [_] => .accepted [⟨400, .line "clock set"⟩, ⟨400, .line prompt⟩]
      | _ => .accepted [⟨100, .line "started"⟩, ⟨700, .line prompt⟩]
    closeFault := none
    leaves := fun _ => [] }

theorem answers_lateClock (settle : Nat) : lateClock.Answers settle := by
  refine ⟨by simp [lateClock], Nat.zero_le _, fun earlier line => ?_, fun earlier line => ?_⟩
  · match earlier with
    | [] => rfl
    | [_] => rfl
    | _ :: _ :: _ => rfl
  · match earlier with
    | [] => exact ⟨[⟨0, .line "uid DW01"⟩], ⟨0, .line prompt⟩, rfl, by decide, by decide⟩
    | [_] => exact ⟨[⟨400, .line "clock set"⟩], ⟨400, .line prompt⟩, rfl, by decide, by decide⟩
    | _ :: _ :: _ =>
      exact ⟨[⟨100, .line "started"⟩], ⟨700, .line prompt⟩, rfl, by decide, by decide⟩

/-- A campaign of a second on one node, with short commands. -/
def hasty : Configuration :=
  { Configuration.default with
    minNodes := 1
    settleDelay := 0
    commandTimeout := 200
    params := { Params.default with iterations := 1, duration := 1 } }

/-- The device with the late clock completes at the prompt behind the clock line: nothing of the
reply to its start line was read. -/
theorem run_reads_lateClock :
    let tool : FirmwareTool :=
      { build := fun _ fs _ => (.done (), fs), openTerminal := fun _ fs _ => (.done lateClock, fs) }
    let src : EnvironmentSource Unit :=
      { reserve := fun _ now _ _ => (.environments [.set .empty Environment.indexVar "1"], now, ())
        release := fun _ => (.ok (), ()) }
    let o : Circumstances := ⟨0, 100000, fun _ => ⟨2024, 1, 1, 0, 0, 0⟩, .never⟩
    let record : NodeRecord :=
      { NodeRecord.new "1" none with uid := some "DW01", outcome := some .completed }
    (run hasty tool src () .empty o).ending = .finished ⟨[record]⟩ ∧
      ∃ n, (execute hasty src o ⟨(), .new tool hasty.recipe .empty, o.start⟩).1 = .ok [n] ∧
        n.record = record ∧
        [Output.line "started", .line prompt] <:+ n.terminal.queue.map (·.output) := by
  intro tool src o record
  have hend : (run hasty tool src () .empty o).ending = .finished ⟨[record]⟩ := by decide +kernel
  have htool : ∀ calls files call b files', tool.openTerminal calls files call = (.done b, files') →
      b.Answers hasty.settleSpan.millisUp := by
    intro calls files call b files' h
    cases h
    exact answers_lateClock _
  obtain ⟨nodes, hok, hrecords, hreads⟩ := run_reads htool hend
  obtain ⟨n, rfl⟩ : ∃ n, nodes = [n] := by
    have hlength := congrArg List.length hrecords
    rw [List.length_map] at hlength
    exact List.length_eq_one_iff.1 hlength.symm
  have hrecord : n.record = record := (List.singleton_inj.1 hrecords).symm
  refine ⟨hend, n, hok, hrecord, ?_⟩
  -- the device is known by its replies to the lines that were sent
  have hdevice : ((execute hasty src o ⟨(), .new tool hasty.recipe .empty, o.start⟩).1.toOption.getD
      []).map (fun n => (n.terminal.attempts[1]?,
        latest (n.terminal.behaviour.reply [uidLine] (setTimeLine (o.clock 0))),
        (n.terminal.behaviour.reply [uidLine, setTimeLine (o.clock 0)]
          (startLine hasty.params)).map (·.output))) =
      [(some (setTimeLine (o.clock 0)), 400, [.line "started", .line prompt])] := by decide +kernel
  rw [hok] at hdevice
  simp only [Except.toOption, Option.getD_some, List.map_cons, List.map_nil, List.cons.injEq,
    Prod.mk.injEq, and_true] at hdevice
  obtain ⟨hclock, hlatest, hstart⟩ := hdevice
  obtain hun | ⟨time, lines, h⟩ := hreads n List.mem_cons_self
  · exact absurd (congrArg NodeRecord.outcome hrecord) hun.outcome
  · obtain ⟨stops, -, hattempts⟩ := h.attempts
    have htime : setTimeLine time = setTimeLine (o.clock 0) := by
      rw [hattempts] at hclock
      exact Option.some.inj hclock
    have hlate : ¬ n.terminal.behaviour.Punctual hasty.commandSpan time := by
      rintro ⟨-, hpunctual⟩
      rw [htime, hlatest] at hpunctual
      exact absurd hpunctual (by decide)
    have hunread := (h.late hlate).2 (congrArg NodeRecord.outcome hrecord)
    rwa [htime, hstart] at hunread

end Experiment

end ProximityLab
