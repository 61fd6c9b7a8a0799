import ProximityLab.Proofs.Session.Reply

/-!
# Every line of output is taken once

A device without read errors puts out its banner and its replies to the lines that are sent
(`Behaviour.printed`). The requests of a session take lines from the front of that output, and a
deadline between two lines takes none.

- **Between two states** (`Talk.Moves`): what was queued and what is replied since is what was taken
  and what is queued then. The relation is kept by reading and by sending, and it composes.
- **Requests** (`Talk.Request.Takes`): how many lines a request takes, by what it hands back.
- **Dialogues** (`Talk.ledger`): after any requests, the lines that they took and the queue are what
  the device put out.
-/

namespace ProximityLab

/-- What a device puts out for some lines, given the lines before them. -/
def Behaviour.replies (b : Behaviour) (earlier : List String) : List String → List Timed
  | [] => []
  | line :: lines => b.reply earlier line ++ b.replies (earlier ++ [line]) lines

/-- What a device has put out after some lines. -/
def Behaviour.printed (b : Behaviour) (lines : List String) : List Output :=
  (b.banner ++ b.replies [] lines).map (·.output)

/-- No read error comes from the device. -/
structure Behaviour.Readable (b : Behaviour) : Prop where
  banner : ∀ t ∈ b.banner, t.output.fault? = none
  reply : ∀ earlier line, ∀ t ∈ b.reply earlier line, t.output.fault? = none

theorem Behaviour.replies_append (b : Behaviour) (earlier lines more : List String) :
    b.replies earlier (lines ++ more) =
      b.replies earlier lines ++ b.replies (earlier ++ lines) more := by
  induction lines generalizing earlier with
  | nil => rw [List.append_nil]; rfl
  | cons line lines ih =>
    rw [List.cons_append, replies, replies, ih, List.append_assoc, List.append_assoc]
    rfl

theorem Behaviour.Readable.replies {b : Behaviour} (hb : b.Readable) (earlier lines : List String) :
    ∀ t ∈ b.replies earlier lines, t.output.fault? = none := by
  induction lines generalizing earlier with
  | nil => nofun
  | cons line lines ih => exact List.forall_mem_append.2 ⟨hb.reply earlier line, ih _⟩

/-- The line that a wait for output takes from the queue. -/
def Terminal.Arrival.taken : Terminal.Arrival → List String
  | .output (.line text) => [text]
  | _ => []

/-- Reading changes the queue only. -/
theorem Terminal.read_terminal (now horizon : Nat) (deadline : Option Nat) (t : Terminal) :
    (t.read now horizon deadline).2.2 = { t with
      queue := (t.read now horizon deadline).2.2.queue } := by
  unfold read
  split <;> rfl

/-- A wait for output takes the first line or nothing. -/
theorem Terminal.read_taken (now horizon : Nat) (deadline : Option Nat) {t : Terminal}
    (hqueue : ∀ d ∈ t.queue, d.output.fault? = none) :
    (∀ cause, (t.read now horizon deadline).1 ≠ .output (.fault cause)) ∧
      t.queue.map (·.output) = (t.read now horizon deadline).1.taken.map .line ++
        (t.read now horizon deadline).2.2.queue.map (·.output) := by
  have hexpire : (∀ cause, (expire now horizon deadline).1 ≠ .output (.fault cause)) ∧
      (expire now horizon deadline).1.taken = [] := by
    unfold expire
    split
    · split <;> simp [Arrival.taken]
    · simp [Arrival.taken]
  unfold read
  split
  · simp [Arrival.taken]
  · cases hq : t.queue with
    | nil => exact ⟨hexpire.1, by rw [await]; simp [hexpire.2]⟩
    | cons d queue =>
      rw [hq] at hqueue
      have hd := hqueue d List.mem_cons_self
      rw [await]
      dsimp only
      split
      · cases ho : d.output with
        | line text => simp [Arrival.taken, ho]
        | eof => simp [Arrival.taken, ho]
        | fault cause =>
          rw [ho] at hd
          cases hd
      · exact ⟨hexpire.1, by simp [hexpire.2]⟩

namespace Talk

variable {s s' s'' : Station}

/-! ## Between two states -/

/-- Between two states, some lines were taken: what was queued and what was replied since is what
was taken and what is queued then. -/
structure Moves (s s' : Station) (taken : List String) : Prop where
  behaviour : s'.terminal.behaviour = s.terminal.behaviour
  output : ∃ lines, s'.terminal.attempts = s.terminal.attempts ++ lines ∧
    s.terminal.queue.map (·.output) ++
        (s.terminal.behaviour.replies s.terminal.attempts lines).map (·.output) =
      taken.map .line ++ s'.terminal.queue.map (·.output)

/-- No read error is queued or will be. -/
structure Clear (s : Station) : Prop where
  behaviour : s.terminal.behaviour.Readable
  queue : ∀ d ∈ s.terminal.queue, d.output.fault? = none

namespace Moves

/-- Nothing is sent. -/
theorem of_queue {taken : List String} {now : Nat} {queue : List Due}
    (h : s.terminal.queue.map (·.output) = taken.map .line ++ queue.map (·.output)) :
    Moves s (seeing s now queue) taken :=
  ⟨rfl, [], (List.append_nil _).symm, (List.append_nil _).trans h⟩

theorem of_terminal (h : s'.terminal = s.terminal) : Moves s s' [] :=
  ⟨congrArg _ h, [], by rw [h, List.append_nil], by rw [h]; exact List.append_nil _⟩

theorem trans {taken more : List String} (h : Moves s s' taken) (h' : Moves s' s'' more) :
    Moves s s'' (taken ++ more) := by
  obtain ⟨hb, lines, hl, ho⟩ := h
  obtain ⟨hb', lines', hl', ho'⟩ := h'
  refine ⟨hb'.trans hb, lines ++ lines', by rw [hl', hl, List.append_assoc], ?_⟩
  rw [hb, hl] at ho'
  rw [Behaviour.replies_append, List.map_append, ← List.append_assoc, ho, List.append_assoc, ho',
    List.map_append, List.append_assoc]

theorem clear {taken : List String} (h : Moves s s' taken) (hs : Clear s) : Clear s' := by
  obtain ⟨hb, lines, -, ho⟩ := h
  refine ⟨hb ▸ hs.behaviour, fun d hd => ?_⟩
  have hmem : d.output ∈ taken.map .line ++ s'.terminal.queue.map (·.output) :=
    List.mem_append_right _ (List.mem_map_of_mem hd)
  rw [← ho] at hmem
  rcases List.mem_append.1 hmem with hmem | hmem
  · obtain ⟨x, hx, heq⟩ := List.mem_map.1 hmem
    exact heq ▸ hs.queue x hx
  · obtain ⟨t, ht, heq⟩ := List.mem_map.1 hmem
    exact heq ▸ hs.behaviour.replies _ _ t ht

end Moves

/-! ## Reading and sending -/

theorem moves_await (hs : Clear s) (deadline : Option Nat) :
    ∃ a s', (await deadline).run.run s = (.ok a, s') ∧ (∀ cause, a ≠ .output (.fault cause)) ∧
      Moves s s' a.taken := by
  obtain ⟨hfault, htaken⟩ := Terminal.read_taken s.now s.horizon deadline hs.queue
  refine ⟨_, _, run_await _ _, hfault, ?_⟩
  rw [Terminal.read_terminal]
  exact .of_queue htaken

/-- What a step takes: a line or a prompt, or nothing. -/
inductive StepTakes : Except Halt Step → List String → Prop where
  | line {text : String} (h : isPrompt text = false) : StepTakes (.ok (.line text)) [text]
  | prompt {text : String} (h : isPrompt text = true) : StepTakes (.ok .prompt) [text]
  | closed : StepTakes (.ok .closed) []
  | deadline : StepTakes (.ok .deadline) []
  | hung : StepTakes (.error .hung) []

theorem moves_step (hs : Clear s) (deadline : Option Nat) :
    ∃ taken, StepTakes ((step deadline).run.run s).1 taken ∧
      Moves s ((step deadline).run.run s).2 taken := by
  obtain ⟨a, s', hrun, hfault, hmoves⟩ := moves_await hs deadline
  refine ⟨a.taken, ?_⟩
  rw [step, run_bind, hrun]
  cases a with
  | output o =>
    cases o with
    | line text =>
      by_cases hp : isPrompt text = true
      · simp only [hp, if_true]
        exact ⟨.prompt hp, hmoves⟩
      · simp only [hp, if_false, Bool.false_eq_true]
        exact ⟨.line (Bool.not_eq_true _ ▸ hp), hmoves⟩
    | eof => exact ⟨.closed, hmoves⟩
    | fault cause => exact absurd rfl (hfault cause)
  | deadline => exact ⟨.deadline, hmoves⟩
  | hung => exact ⟨.hung, hmoves⟩

/-- What a capture takes: its lines, and the prompt if it ended with one. The lines of a capture
that is given up are taken as well. -/
inductive CaptureTakes : Except Halt Capture → List String → Prop where
  | prompt (lines : List String) {text : String} (h : isPrompt text = true) :
      CaptureTakes (.ok ⟨lines, .prompt⟩) (lines ++ [text])
  | unprompted {c : Capture} (h : c.ending ≠ .prompt) : CaptureTakes (.ok c) c.lines
  | hung {lines : List String} (h : ∀ text ∈ lines, isPrompt text = false) :
      CaptureTakes (.error .hung) lines

theorem CaptureTakes.behind {result : Except Halt Capture} {taken : List String} {text : String}
    (hplain : isPrompt text = false) (h : CaptureTakes result taken) :
    CaptureTakes (result.map (·.behind text)) (text :: taken) := by
  cases h with
  | prompt lines hp => exact .prompt (text :: lines) hp
  | unprompted hne => exact .unprompted hne
  | hung hlines => exact .hung (List.forall_mem_cons.2 ⟨hplain, hlines⟩)

theorem moves_captureWithin (hs : Clear s) (deadline : Option Nat) (fuel : Nat) :
    ∃ taken, CaptureTakes ((captureWithin deadline fuel).run.run s).1 taken ∧
      Moves s ((captureWithin deadline fuel).run.run s).2 taken := by
  induction fuel generalizing s with
  | zero => exact ⟨[], .unprompted (by decide), .of_terminal rfl⟩
  | succ fuel ih =>
    obtain ⟨taken, htakes, hmoves⟩ := moves_step hs deadline
    rw [captureWithin, run_bind]
    rcases hrun : (step deadline).run.run s with ⟨result, s'⟩
    rw [hrun] at htakes hmoves
    cases htakes with
    | @line text hplain =>
      obtain ⟨more, hmore, hmoves'⟩ := ih (hmoves.clear hs)
      dsimp only
      rw [run_map]
      exact ⟨text :: more, hmore.behind hplain, hmoves.trans hmoves'⟩
    | prompt hp => exact ⟨_, .prompt [] hp, hmoves⟩
    | closed => exact ⟨_, .unprompted (by decide), hmoves⟩
    | deadline => exact ⟨_, .unprompted (by decide), hmoves⟩
    | hung => exact ⟨[], .hung (by simp), hmoves⟩

theorem moves_capture (hs : Clear s) (deadline : Option Nat) :
    ∃ taken, CaptureTakes ((capture deadline).run.run s).1 taken ∧
      Moves s ((capture deadline).run.run s).2 taken := by
  rw [capture, run_bind, run_get]
  exact moves_captureWithin hs deadline _

theorem moves_discardWithin (hs : Clear s) (moment fuel : Nat) :
    ∃ dropped s', (discardWithin moment fuel).run.run s = (.ok dropped.length, s') ∧
      Moves s s' dropped := by
  induction fuel generalizing s with
  | zero => exact ⟨[], s, rfl, .of_terminal rfl⟩
  | succ fuel ih =>
    obtain ⟨a, s', hrun, hfault, hmoves⟩ := moves_await hs (some moment)
    rw [discardWithin, run_bind, hrun]
    cases a with
    | output o =>
      cases o with
      | line text =>
        obtain ⟨dropped, s'', hrest, hmore⟩ := ih (hmoves.clear hs)
        refine ⟨text :: dropped, s'', ?_, hmoves.trans hmore⟩
        dsimp only
        rw [run_bind, hrest]
        rfl
      | eof => exact ⟨[], s', rfl, hmoves⟩
      | fault cause => exact absurd rfl (hfault cause)
    | deadline => exact ⟨[], s', rfl, hmoves⟩
    | hung => exact ⟨[], s', rfl, hmoves⟩

theorem moves_discard (hs : Clear s) :
    ∃ dropped s', discard.run.run s = (.ok dropped.length, s') ∧ Moves s s' dropped := by
  rw [run_discard_eq]
  exact moves_discardWithin hs _ _

/-- What a line leads to is queued. -/
theorem moves_dispatch (s : Station) (line : String) :
    Moves s ((dispatch line).run.run s).2 [] := by
  rw [run_dispatch]
  cases hclosed : s.terminal.closed with
  | true => exact .of_terminal (by rw [Terminal.send, if_pos hclosed])
  | false =>
    cases hrespond : s.terminal.behaviour.respond s.terminal.attempts line with
    | refused cause =>
      rw [Terminal.send_of_refused s.now hclosed hrespond]
      refine ⟨rfl, [line], Terminal.attempts_tried .., ?_⟩
      simp [Behaviour.replies, Behaviour.reply, hrespond, Terminal.tried]
    | accepted items =>
      rw [Terminal.send_of_accepted s.now hclosed hrespond]
      refine ⟨rfl, [line], Terminal.attempts_tried .., ?_⟩
      simp [Behaviour.replies, Behaviour.reply, hrespond, Terminal.enqueue, schedule_output]

/-- What a command takes: what it drops, and what its capture takes. -/
inductive CommandTakes (limit : TimeSpan) (line : String) (s : Station) : List String → Prop where
  | captured {dropped own : List String} (hdropped : (discard.run.run s).1 = .ok dropped.length)
      (hown : CaptureTakes ((command limit line).run.run s).1 own) :
      CommandTakes limit line s (dropped ++ own)
  /-- The command fails before it captures anything. -/
  | failed {dropped : List String} {h : Halt}
      (hdropped : (discard.run.run s).1 = .ok dropped.length)
      (hfailed : ((command limit line).run.run s).1 = .error h) (hne : h ≠ .hung) :
      CommandTakes limit line s dropped

/-- A line is sent, and its reply is captured unless one of the two fails. -/
theorem moves_reply (hs : Clear s) (limit : TimeSpan) (line : String) :
    let r := (do dispatch line; capture (some (← deadlineIn limit)) : Talk Capture).run.run s
    (∃ own, CaptureTakes r.1 own ∧ Moves s r.2 own) ∨
      ∃ h, r.1 = .error h ∧ h ≠ .hung ∧ Moves s r.2 [] := by
  have hsent := moves_dispatch s line
  dsimp only
  rw [run_bind]
  rw [run_dispatch] at hsent ⊢
  dsimp only at hsent ⊢
  generalize hs' : ({ s with terminal := (s.terminal.send s.now line).2 } : Station) = s' at hsent ⊢
  cases (s.terminal.send s.now line).1 with
  | error cause => exact .inr ⟨_, rfl, nofun, hsent⟩
  | ok =>
    dsimp only [Except.mapError]
    rw [run_bind, run_deadlineIn]
    rcases deadlineAfter_spec s'.now limit with hdeadline | hdeadline
    · rw [hdeadline]
      obtain ⟨own, hown, hmoves⟩ := moves_capture (hsent.clear hs) (some (s'.now + limit.millisUp))
      exact .inl ⟨own, hown, hsent.trans hmoves⟩
    · rw [hdeadline]
      exact .inr ⟨_, rfl, nofun, hsent⟩

theorem moves_command (hs : Clear s) (limit : TimeSpan) (line : String) :
    ∃ taken, CommandTakes limit line s taken ∧
      Moves s ((command limit line).run.run s).2 taken := by
  obtain ⟨dropped, s', hdiscard, hdropped⟩ := moves_discard hs
  have hcount : (discard.run.run s).1 = .ok dropped.length := congrArg Prod.fst hdiscard
  have hcommand : (command limit line).run.run s =
      (do dispatch line; capture (some (← deadlineIn limit)) : Talk Capture).run.run s' := by
    rw [command, run_bind, hdiscard]
  rcases moves_reply (hdropped.clear hs) limit line
    with ⟨own, hown, hmoves⟩ | ⟨h, hfailed, hne, hmoves⟩
  · rw [← hcommand] at hown hmoves
    exact ⟨_, .captured hcount hown, hdropped.trans hmoves⟩
  · rw [← hcommand] at hfailed hmoves
    exact ⟨_, .failed hcount hfailed hne, List.append_nil dropped ▸ hdropped.trans hmoves⟩

/-! ## Requests -/

/-- What can be asked of a session. -/
inductive Request where
  | uid
  | status
  | set (key value : String)
  | time
  | setTime (d : DateTime)
  | reboot
  | command (line : String)
  | dispatch (line : String)
  | start (p : Params)
  | stop
  | discard
  | capture (deadline : Option Nat)
  | step (deadline : Option Nat)
  | sleep (d : TimeSpan)

/-- What a request takes, and the station after it: a command takes what it drops and what its
capture takes; dropping takes as many lines as it counts; a capture and a step take what they hand
back. Sending a line and letting time pass take nothing. -/
inductive Request.Takes (limit : TimeSpan) (s : Station) :
    Request → List String → Station → Prop where
  | uid {taken : List String} (h : CommandTakes limit uidLine s taken) :
      Takes limit s .uid taken ((Talk.uid limit).run.run s).2
  | status {taken : List String} (h : CommandTakes limit "pepper status" s taken) :
      Takes limit s .status taken ((Talk.status limit).run.run s).2
  | set {key value : String} {taken : List String}
      (h : CommandTakes limit s!"pepper set {key} {value}" s taken) :
      Takes limit s (.set key value) taken ((Talk.setValue limit key value).run.run s).2
  | time {taken : List String} (h : CommandTakes limit "time" s taken) :
      Takes limit s .time taken ((Talk.time limit).run.run s).2
  | setTime {d : DateTime} {taken : List String} (h : CommandTakes limit (setTimeLine d) s taken) :
      Takes limit s (.setTime d) taken ((Talk.setTime limit d).run.run s).2
  | reboot {taken : List String} (h : CommandTakes limit "reboot" s taken) :
      Takes limit s .reboot taken ((Talk.reboot limit).run.run s).2
  | command {line : String} {taken : List String} (h : CommandTakes limit line s taken) :
      Takes limit s (.command line) taken ((Talk.command limit line).run.run s).2
  | dispatch {line : String} : Takes limit s (.dispatch line) [] ((Talk.dispatch line).run.run s).2
  | start {p : Params} : Takes limit s (.start p) [] ((Talk.start p).run.run s).2
  | stop : Takes limit s .stop [] (Talk.stop.run.run s).2
  | discard {taken : List String} (h : (Talk.discard.run.run s).1 = .ok taken.length) :
      Takes limit s .discard taken (Talk.discard.run.run s).2
  | capture {deadline : Option Nat} {taken : List String}
      (h : CaptureTakes ((Talk.capture deadline).run.run s).1 taken) :
      Takes limit s (.capture deadline) taken ((Talk.capture deadline).run.run s).2
  | step {deadline : Option Nat} {taken : List String}
      (h : StepTakes ((Talk.step deadline).run.run s).1 taken) :
      Takes limit s (.step deadline) taken ((Talk.step deadline).run.run s).2
  | sleep {d : TimeSpan} : Takes limit s (.sleep d) [] ((Talk.sleep d).run.run s).2

/-- Letting time pass leaves the terminal alone. -/
theorem terminal_sleep (d : TimeSpan) (s : Station) :
    ((sleep d).run.run s).2.terminal = s.terminal := by
  rw [sleep, run_bind, run_get]
  dsimp only
  generalize s.now + d.millisUp = moment
  by_cases h : moment ≤ s.horizon
  · simp only [if_pos h, run_set]
  · simp only [if_neg h, run_bind, run_set]
    rfl

/-- A request takes its lines from the front of the output. -/
theorem Request.moves (hs : Clear s) (limit : TimeSpan) (r : Request) :
    ∃ taken s', r.Takes limit s taken s' ∧ Moves s s' taken := by
  -- reading an answer differently changes nothing
  have hmap : ∀ {α : Type} (f : Capture → α) {line : String} {taken : List String},
      Moves s ((Talk.command limit line).run.run s).2 taken →
        Moves s ((Talk.command limit line >>= fun c => pure (f c)).run.run s).2 taken :=
          fun f _ _ h => by
    rw [run_map]
    exact h
  cases r with
  | uid =>
    obtain ⟨taken, htakes, hmoves⟩ := moves_command hs limit uidLine
    exact ⟨taken, _, .uid htakes, hmap _ hmoves⟩
  | status =>
    obtain ⟨taken, htakes, hmoves⟩ := moves_command hs limit "pepper status"
    exact ⟨taken, _, .status htakes, hmap _ hmoves⟩
  | time =>
    obtain ⟨taken, htakes, hmoves⟩ := moves_command hs limit "time"
    exact ⟨taken, _, .time htakes, hmap _ hmoves⟩
  | set key value =>
    obtain ⟨taken, htakes, hmoves⟩ := moves_command hs limit s!"pepper set {key} {value}"
    exact ⟨taken, _, .set htakes, hmoves⟩
  | setTime d =>
    obtain ⟨taken, htakes, hmoves⟩ := moves_command hs limit (setTimeLine d)
    exact ⟨taken, _, .setTime htakes, hmoves⟩
  | reboot =>
    obtain ⟨taken, htakes, hmoves⟩ := moves_command hs limit "reboot"
    exact ⟨taken, _, .reboot htakes, hmoves⟩
  | command line =>
    obtain ⟨taken, htakes, hmoves⟩ := moves_command hs limit line
    exact ⟨taken, _, .command htakes, hmoves⟩
  | dispatch line => exact ⟨[], _, .dispatch, moves_dispatch s line⟩
  | start p => exact ⟨[], _, .start, moves_dispatch s (startLine p)⟩
  | stop => exact ⟨[], _, .stop, moves_dispatch s stopLine⟩
  | discard =>
    obtain ⟨dropped, s', hrun, hmoves⟩ := moves_discard hs
    have hafter : (Talk.discard.run.run s).2 = s' := by rw [hrun]
    exact ⟨dropped, _, .discard (by rw [hrun]), hafter ▸ hmoves⟩
  | capture deadline =>
    obtain ⟨taken, htakes, hmoves⟩ := moves_capture hs deadline
    exact ⟨taken, _, .capture htakes, hmoves⟩
  | step deadline =>
    obtain ⟨taken, htakes, hmoves⟩ := moves_step hs deadline
    exact ⟨taken, _, .step htakes, hmoves⟩
  | sleep d => exact ⟨[], _, .sleep, .of_terminal (terminal_sleep d s)⟩

/-! ## Dialogues -/

/-- Some requests of a session, with what they take one after the other. Each has the moment at
which it is given up. -/
inductive Dialogue (limit : TimeSpan) :
    Station → List (Nat × Request) → List String → Station → Prop where
  | nil (s : Station) : Dialogue limit s [] [] s
  | cons {s s' s'' : Station} {horizon : Nat} {r : Request} {rest : List (Nat × Request)}
      {taken more : List String} (hfirst : r.Takes limit { s with horizon := horizon } taken s')
      (hrest : Dialogue limit s' rest more s'') :
      Dialogue limit s ((horizon, r) :: rest) (taken ++ more) s''

theorem moves_dialogue (hs : Clear s) (limit : TimeSpan) (requests : List (Nat × Request)) :
    ∃ taken s', Dialogue limit s requests taken s' ∧ Moves s s' taken := by
  induction requests generalizing s with
  | nil => exact ⟨[], s, .nil s, .of_terminal rfl⟩
  | cons request rest ih =>
    obtain ⟨horizon, r⟩ := request
    have hs' : Clear { s with horizon := horizon } := ⟨hs.behaviour, hs.queue⟩
    obtain ⟨taken, s', htakes, hmoves⟩ := r.moves hs' limit
    obtain ⟨more, s'', hmore, hmoves'⟩ := ih (hmoves.clear hs')
    have hall : Moves { s with horizon := horizon } s'' (taken ++ more) := hmoves.trans hmoves'
    exact ⟨taken ++ more, s'', .cons htakes hmore, hall.behaviour, hall.output⟩

/-- **No line is lost or read twice.** Whatever is asked of a session with a device that has no read
errors, with any deadlines: the lines that the requests took and the output that is still queued are
the banner and the replies to the lines that were sent, in their order. -/
theorem ledger {b : Behaviour} (hb : b.Readable) (limit : TimeSpan) (now horizon : Nat)
    (requests : List (Nat × Request)) :
    ∃ taken s', Dialogue limit ⟨now, horizon, .opened now b⟩ requests taken s' ∧
      taken.map .line ++ s'.terminal.queue.map (·.output) = b.printed s'.terminal.attempts := by
  have hbanner : (Terminal.opened now b).queue.map (·.output) = b.banner.map (·.output) :=
    schedule_output now 0 _
  have hclear : Clear ⟨now, horizon, .opened now b⟩ := by
    refine ⟨hb, fun d hd => ?_⟩
    obtain ⟨t, ht, heq⟩ := exists_of_mem_schedule hd
    exact heq ▸ hb.banner t ht
  obtain ⟨taken, s', htakes, -, lines, hattempts, houtput⟩ := moves_dialogue hclear limit requests
  refine ⟨taken, s', htakes, ?_⟩
  rw [← houtput, hattempts, Behaviour.printed, List.map_append]
  exact congrArg (· ++ _) hbanner

/-- A device that greets and answers every line, with a second line that comes late. -/
def talkative : Behaviour :=
  { Behaviour.uniform
      (.accepted [⟨0, .line "first"⟩, ⟨300, .line "second"⟩, ⟨300, .line ">"⟩]) none with
    banner := [⟨0, .line "boot"⟩, ⟨0, .line ">"⟩] }

/-- Requests whose deadlines come between two lines of a reply. -/
def impatient : List (Nat × Request) :=
  [(1000, .uid), (1000, .capture (some 250)), (1000, .step (some 260)), (1000, .dispatch "again"),
    (1000, .sleep (.ofMillis 400)), (1000, .discard)]

theorem ledger_talkative :
    talkative.Readable ∧ ∃ taken s',
      Dialogue (.ofMillis 200) ⟨0, 1000, .opened 0 talkative⟩ impatient taken s' ∧
        taken.map .line ++ s'.terminal.queue.map (·.output) =
        talkative.printed s'.terminal.attempts := by
  have hb : talkative.Readable :=
    ⟨by decide, fun _ _ => by simp [Behaviour.reply, talkative, Behaviour.uniform, Output.fault?]⟩
  exact ⟨hb, ledger hb (.ofMillis 200) 0 1000 impatient⟩

end Talk

end ProximityLab
