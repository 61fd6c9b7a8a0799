import ProximityLab.Proofs.Campaign.Timeline
import ProximityLab.Proofs.Session.Reading

/-!
# Commands and the replies to them

A device that answers each line with some lines and a prompt behind them (`Behaviour.Answers`), and
what a session finds when it sends commands to it:

- `run_captureWithin`, `run_discardWithin`: the two ways to read, as functions of the queue.
- `command_of_due`: when all earlier output is due, a command reads exactly its own reply, if that
  comes in time. Otherwise the rest of the reply stays behind (`Remains`).
- `command_of_remains`: when the rest of a reply is still to come, a command leaves that or its own
  reply behind.
-/

namespace ProximityLab

/-! ## Replies -/

/-- The longest delay of some output. -/
def latest (items : List Timed) : Nat := (items.map (·.delay)).foldr max 0

/-- Lines that are no prompts, and one prompt behind them. -/
def IsReply (items : List Timed) : Prop :=
  ∃ front last, items = front ++ [last] ∧ (∀ t ∈ front, t.output.ending? = none) ∧
    last.output.ending? = some .prompt

/-- What a device puts out for a line, given the lines before it. -/
def Behaviour.reply (b : Behaviour) (earlier : List String) (line : String) : List Timed :=
  match b.respond earlier line with
  | .accepted items => items
  | .refused _ => []

/-- The device answers each line with one reply. What it prints when it starts are lines that come
within a settling time. -/
structure Behaviour.Answers (b : Behaviour) (settle : Nat) : Prop where
  banner : ∀ t ∈ b.banner, ∃ text, t.output = .line text
  settled : latest b.banner ≤ settle
  accepts : ∀ earlier line, b.respond earlier line = .accepted (b.reply earlier line)
  replies : ∀ earlier line, IsReply (b.reply earlier line)

/-- A reply consists of lines. -/
theorem IsReply.lines {items : List Timed} (h : IsReply items) :
    ∀ t ∈ items, ∃ text, t.output = .line text := by
  obtain ⟨front, last, rfl, hfront, hlast⟩ := h
  have hline : ∀ o : Output, o.ending? = none ∨ o.ending? = some .prompt →
      ∃ text, o = .line text := by
    intro o ho
    cases o with
    | line text => exact ⟨text, rfl⟩
    | eof => simp [Output.ending?] at ho
    | fault cause => simp [Output.ending?] at ho
  intro t ht
  rcases List.mem_append.1 ht with ht | ht
  · exact hline _ (.inl (hfront t ht))
  · obtain rfl := List.mem_singleton.1 ht
    exact hline _ (.inr hlast)

/-- The last output comes after the longest delay, but not before what is in front. -/
theorem lastDue_schedule (now last : Nat) {items : List Timed} (h : items ≠ []) :
    Terminal.lastDue (schedule now last items) = max last (now + latest items) := by
  induction items generalizing last with
  | nil => exact absurd rfl h
  | cons t items ih =>
    by_cases hnil : items = []
    · subst hnil
      simp [schedule, Terminal.lastDue, latest]
    · have hrest := ih (max last (now + t.delay)) hnil
      have hsuffix : schedule now (max last (now + t.delay)) items <:+
          schedule now last (t :: items) :=
        List.suffix_cons _ _
      have hne : schedule now (max last (now + t.delay)) items ≠ [] := fun hs => by
        have houtput := schedule_output now (max last (now + t.delay)) items
        rw [hs] at houtput
        exact hnil (List.map_eq_nil_iff.1 houtput.symm)
      rw [← lastDue_of_suffix hsuffix hne, hrest]
      simp only [latest, List.map_cons, List.foldr_cons]
      omega

theorem le_of_mem_schedule_latest {now last : Nat} {items : List Timed} {d : Due}
    (h : d ∈ schedule now last items) : d.time ≤ max last (now + latest items) := by
  have hne : items ≠ [] := by
    rintro rfl
    simp [schedule] at h
  rw [← lastDue_schedule now last hne]
  exact Terminal.le_lastDue (Terminal.schedule_sorted now last items).1 h

/-! ## What is left of a reply -/

/-- The queue is the end of a reply. -/
def Remains (reply : List Timed) (queue : List Due) : Prop :=
  queue ≠ [] ∧ queue.map (·.output) <:+ reply.map (·.output)

/-- The queue begins with the end of a reply. -/
def Owing (reply : List Timed) (queue : List Due) : Prop :=
  ∃ left rest, queue = left ++ rest ∧ Remains reply left

/-- What is left of a reply are some lines and its prompt. -/
theorem Remains.split {reply : List Timed} {queue : List Due} (hreply : IsReply reply)
    (h : Remains reply queue) :
    ∃ front last, queue = front ++ [last] ∧ (∀ d ∈ front, d.output.ending? = none) ∧
      last.output.ending? = some .prompt := by
  obtain ⟨hne, hsuf⟩ := h
  obtain ⟨lines, prompt, rfl, hlines, hprompt⟩ := hreply
  obtain ⟨front, last, rfl⟩ : ∃ front last, queue = front ++ [last] :=
    ⟨queue.dropLast, queue.getLast hne, (List.dropLast_concat_getLast hne).symm⟩
  simp only [List.map_append, List.map_cons, List.map_nil] at hsuf
  obtain ⟨before, heq⟩ := hsuf
  rw [← List.append_assoc] at heq
  obtain ⟨hfront, hlast⟩ := List.append_inj' heq rfl
  refine ⟨front, last, rfl, fun d hd => ?_, by rw [List.singleton_inj.1 hlast]; exact hprompt⟩
  have hmem : d.output ∈ lines.map (·.output) := by
    rw [← hfront]
    exact List.mem_append_right _ (List.mem_map_of_mem hd)
  obtain ⟨t, ht, heq⟩ := List.mem_map.1 hmem
  rw [← heq]
  exact hlines t ht

theorem Remains.of_suffix {reply : List Timed} {queue rest : List Due} (h : Remains reply queue)
    (hrest : rest <:+ queue) (hne : rest ≠ []) : Remains reply rest :=
  ⟨hne, (hrest.map _).trans h.2⟩

/-- A reply that was just put out remains as a whole. -/
theorem remains_schedule {reply : List Timed} (hreply : IsReply reply) (now last : Nat) :
    Remains reply (schedule now last reply) := by
  have houtput := schedule_output now last reply
  refine ⟨fun hs => ?_, houtput ▸ List.suffix_refl _⟩
  obtain ⟨front, last, rfl, -, -⟩ := hreply
  simp [hs] at houtput

/-- Reading up to a prompt either takes it, with the lines in front of it, or stops before it. -/
theorem gather_prompted (p : Nat → Bool) (now : Nat) {front : List Due} {last : Due}
    (rest : List Due) (hfront : ∀ d ∈ front, d.output.ending? = none)
    (hlast : last.output.ending? = some .prompt) :
    (∃ time, last.time ≤ time ∧ gather p now (front ++ last :: rest) =
        ⟨linesOf front, some (.prompt, time), rest⟩) ∨
      ∃ read left, front = read ++ left ∧
        gather p now (front ++ last :: rest) = ⟨linesOf read, none, left ++ last :: rest⟩ := by
  have hne : last.output ≠ .eof := by
    intro h
    rw [h] at hlast
    cases hlast
  induction front generalizing now with
  | nil =>
    by_cases hp : p (max now last.time) = true
    · exact .inl ⟨max now last.time, Nat.le_max_right _ _,
        by simp [gather, hp, hlast, hne, linesOf]⟩
    · exact .inr ⟨[], [], rfl, by simp [gather, hp, linesOf]⟩
  | cons d front ih =>
    have hd := hfront d List.mem_cons_self
    by_cases hp : p (max now d.time) = true
    · have hstep : gather p now (d :: front ++ last :: rest) =
          let g := gather p (max now d.time) (front ++ last :: rest)
          { g with lines := d.output.line?.toList ++ g.lines } := by
        rw [List.cons_append, gather]
        simp [hp, hd]
      have hlines : ∀ read : List Due,
          linesOf (d :: read) = d.output.line?.toList ++ linesOf read := by
        intro read
        rw [linesOf, List.filterMap_cons]
        cases d.output.line? <;> rfl
      rw [hstep]
      rcases ih (max now d.time) fun x hx => hfront x (List.mem_cons_of_mem d hx) with
        ⟨time, hle, hg⟩ | ⟨read, left, rfl, hg⟩
      · exact .inl ⟨time, hle, by rw [hg, hlines]⟩
      · exact .inr ⟨d :: read, left, rfl, by rw [hg, hlines]⟩
    · exact .inr ⟨[], d :: front, rfl, by simp [gather, hp, linesOf]⟩

/-- Nothing is added to the queue by reading it. -/
theorem gather_suffix (p : Nat → Bool) (now : Nat) (queue : List Due) :
    (gather p now queue).rest <:+ queue := by
  induction queue generalizing now with
  | nil => exact List.suffix_refl _
  | cons d queue ih =>
    unfold gather
    dsimp only
    split
    · split
      · split
        · exact List.suffix_refl _
        · exact List.suffix_cons _ _
      · exact (ih _).trans (List.suffix_cons _ _)
    · exact List.suffix_refl _

/-- An ending that is found is an item of the queue. -/
theorem mem_of_gather_ending {p : Nat → Bool} {now : Nat} {queue : List Due} {e : Ending}
    {time : Nat} (h : (gather p now queue).ending = some (e, time)) :
    ∃ d ∈ queue, d.output.ending? = some e := by
  induction queue generalizing now with
  | nil => cases h
  | cons d queue ih =>
    unfold gather at h
    dsimp only at h
    split at h
    · split at h
      · rename_i he
        obtain ⟨rfl, -⟩ := Prod.mk.inj (Option.some.inj h)
        exact ⟨d, List.mem_cons_self, he⟩
      · obtain ⟨x, hx, he⟩ := ih h
        exact ⟨x, List.mem_cons_of_mem d hx, he⟩
    · cases h

/-! ## Reading -/

namespace Talk

variable {s : Station}

/-- The result of a capture that finds this. -/
def captured (s : Station) (deadline : Nat) (g : Gathered) : Except Halt Capture × Station :=
  match g.ending with
  | some (_, time) => (.ok ⟨g.lines, .prompt⟩, seeing s time g.rest)
  | none =>
    if deadline ≤ s.horizon then (.ok ⟨g.lines, .deadline⟩, seeing s deadline g.rest)
    else (.error .hung, seeing s s.horizon g.rest)

/-- A capture that ends stops at the prompt that it finds, or else at its deadline. -/
theorem captured_ok {deadline : Nat} {g : Gathered} {result : Capture} {s' : Station}
    (h : captured s deadline g = (.ok result, s')) :
    ∃ time, s' = seeing s time g.rest ∧ ((∃ e, g.ending = some (e, time)) ∨
      g.ending = none ∧ time = deadline ∧ deadline ≤ s.horizon) := by
  unfold captured at h
  split at h
  · rename_i e time he
    exact ⟨time, (Prod.mk.inj h).2.symm, .inl ⟨e, he⟩⟩
  · rename_i he
    split at h
    · rename_i hh
      exact ⟨deadline, (Prod.mk.inj h).2.symm, .inr ⟨he, rfl, hh⟩⟩
    · cases h

/-- Where there are lines only, a prompt ends a capture. -/
theorem captures_of_lines {queue : List Due} (hlines : ∀ d ∈ queue, ∃ text, d.output = .line text)
    (deadline : Nat) (p : Nat → Bool) (now : Nat) :
    captures s deadline (gather p now queue) = captured s deadline (gather p now queue) := by
  have hending : ∀ e time, (gather p now queue).ending = some (e, time) → e = .prompt := by
    intro e time h
    obtain ⟨d, hd, he⟩ := mem_of_gather_ending h
    obtain ⟨text, htext⟩ := hlines d hd
    rw [htext, Output.ending?] at he
    split at he
    · exact (Option.some.inj he).symm
    · cases he
  generalize gather p now queue = g at hending ⊢
  obtain ⟨lines, _ | ⟨e, time⟩, rest⟩ := g
  · rfl
  · obtain rfl := hending e time rfl
    rfl

/-- Where there are lines only, those that are due are stale. -/
theorem kept_of_lines (hopen : s.terminal.closed = false)
    (hlines : ∀ d ∈ s.terminal.queue, ∃ text, d.output = .line text) :
    s.terminal.kept s.now = s.terminal.queue.dropWhile fun d => d.time ≤ s.now := by
  have hstale : ∀ d ∈ s.terminal.queue, s.terminal.isStale s.now d = decide (d.time ≤ s.now) :=
    fun d hd => by
      obtain ⟨text, htext⟩ := hlines d hd
      simp [Terminal.isStale, hopen, htext]
  rw [Terminal.kept]
  generalize s.terminal.isStale s.now = isStale at hstale ⊢
  generalize s.terminal.queue = queue at hstale ⊢
  induction queue with
  | nil => rfl
  | cons d queue ih =>
    obtain ⟨hd, hqueue⟩ := List.forall_mem_cons.1 hstale
    rw [List.dropWhile_cons, List.dropWhile_cons, hd, ih hqueue]

/-- The station after a line was sent to it, without the output that was due by then. -/
def asked (s : Station) (line : String) (items : List Timed) : Station :=
  { s with
    terminal := { s.terminal with
      trials := s.terminal.trials ++ [⟨s.now, line, true⟩]
      queue := Terminal.enqueue s.now items (s.terminal.queue.dropWhile fun d => d.time ≤ s.now) } }

theorem attempts_asked (s : Station) (line : String) (items : List Timed) :
    (asked s line items).terminal.attempts = s.terminal.attempts ++ [line] := by
  simp [asked, Terminal.attempts]

theorem lines_asked {line : String} {items : List Timed}
    (hlines : ∀ d ∈ s.terminal.queue, ∃ text, d.output = .line text)
    (hitems : ∀ t ∈ items, ∃ text, t.output = .line text) :
    ∀ d ∈ (asked s line items).terminal.queue, ∃ text, d.output = .line text := by
  intro d hd
  rcases List.mem_append.1 hd with hd | hd
  · exact hlines d ((List.dropWhile_suffix _).mem hd)
  · obtain ⟨t, ht, heq⟩ := exists_of_mem_schedule hd
    rw [← heq]
    exact hitems t ht

/-- A command drops what is due, sends its line and captures what comes up to its deadline. -/
theorem run_command (limit : TimeSpan) {line : String} {items : List Timed}
    (hopen : s.terminal.closed = false)
    (hlines : ∀ d ∈ s.terminal.queue, ∃ text, d.output = .line text) (hnow : s.now ≤ s.horizon)
    (hr : s.terminal.behaviour.respond s.terminal.attempts line = .accepted items)
    (hitems : ∀ t ∈ items, ∃ text, t.output = .line text) :
    (command limit line).run.run s =
      match deadlineAfter s.now limit with
      | .error h => (.error h, asked s line items)
      | .ok deadline => captured (asked s line items) deadline
          (gather (within s deadline) s.now (asked s line items).terminal.queue) := by
  have hstale : ∀ d ∈ s.terminal.stale s.now, d.output.fault? = none := fun d hd => by
    obtain ⟨text, htext⟩ := hlines d ((List.takeWhile_prefix _).mem hd)
    rw [htext]
    rfl
  rw [run_command_of_stale hnow hstale, Terminal.send_of_accepted
    (t := { s.terminal with queue := s.terminal.kept s.now }) s.now hopen hr,
    kept_of_lines hopen hlines]
  dsimp only
  cases deadlineAfter s.now limit with
  | error h => rfl
  | ok deadline =>
    exact captures_of_lines (s := asked s line items) (lines_asked hlines hitems) deadline _ _

/-- What a command that is not cut short does to a station, apart from what it leaves in the
queue. -/
structure Commanded (s : Station) (line : String) (s' : Station) : Prop where
  behaviour : s'.terminal.behaviour = s.terminal.behaviour
  closed : s'.terminal.closed = false
  attempts : s'.terminal.attempts = s.terminal.attempts ++ [line]
  lines : ∀ d ∈ s'.terminal.queue, ∃ text, d.output = .line text
  horizon : s'.horizon = s.horizon
  later : s.now ≤ s'.now
  inTime : s'.now ≤ s.horizon

section Command

variable {limit : TimeSpan} {line : String} {settle : Nat} {result : Capture} {s' : Station}
  (hopen : s.terminal.closed = false)
  (hlines : ∀ d ∈ s.terminal.queue, ∃ text, d.output = .line text) (hnow : s.now ≤ s.horizon)
  (hb : s.terminal.behaviour.Answers settle)
  (hrun : (command limit line).run.run s = (.ok result, s'))
include hopen hlines hnow hb hrun

/-- What a command that is not cut short leaves behind. -/
theorem command_ok :
    Commanded s line s' ∧
      let items := s.terminal.behaviour.reply s.terminal.attempts line
      let g := gather (within s (s.now + limit.millisUp)) s.now (asked s line items).terminal.queue
      s'.terminal.queue = g.rest ∧
        (g.ending = none → s'.now = s.now + limit.millisUp ∧ s'.now ≤ s.horizon) := by
  have hitems := (hb.replies s.terminal.attempts line).lines
  have hasked := run_command limit hopen hlines hnow (hb.accepts s.terminal.attempts line) hitems
  rw [hrun] at hasked
  cases hd : deadlineAfter s.now limit with
  | error h =>
    rw [hd] at hasked
    cases hasked
  | ok deadline =>
    have hlater := le_deadlineAfter hd
    obtain rfl := eq_of_deadlineAfter hd
    rw [hd] at hasked
    have hrest := gather_suffix (within s (s.now + limit.millisUp)) s.now
      (asked s line (s.terminal.behaviour.reply s.terminal.attempts line)).terminal.queue
    have hfound := @le_of_gather_ending (within s (s.now + limit.millisUp)) s.now
      (asked s line (s.terminal.behaviour.reply s.terminal.attempts line)).terminal.queue
    dsimp only at hasked ⊢
    generalize gather (within s (s.now + limit.millisUp)) s.now
      (asked s line (s.terminal.behaviour.reply s.terminal.attempts line)).terminal.queue = g
      at hasked hrest hfound ⊢
    have hleft : ∀ d ∈ g.rest, ∃ text, d.output = .line text := fun d hd =>
      lines_asked hlines hitems d (hrest.mem hd)
    obtain ⟨time, rfl, hstop⟩ := captured_ok hasked.symm
    have htried := attempts_asked s line (s.terminal.behaviour.reply s.terminal.attempts line)
    generalize s.now + limit.millisUp = deadline at hfound hstop hlater ⊢
    rcases hstop with ⟨e, he⟩ | ⟨he, rfl, hh⟩
    · obtain ⟨hle, hin⟩ := hfound he
      exact ⟨⟨rfl, hopen, htried, hleft, rfl, hle, (of_decide_eq_true hin).2⟩, rfl, by simp [he]⟩
    · exact ⟨⟨rfl, hopen, htried, hleft, rfl, hlater, hh⟩, rfl, fun _ => ⟨rfl, hh⟩⟩

/-- When all earlier output is due, a command that leaves time enough for its reply leaves nothing.
Else it leaves the end of the reply, all of which is still to come. -/
theorem command_of_due (hdue : ∀ d ∈ s.terminal.queue, d.time ≤ s.now) :
    let items := s.terminal.behaviour.reply s.terminal.attempts line
    (latest items ≤ limit.millisUp → s'.terminal.queue = []) ∧
      (limit.millisUp < latest items →
        Remains items s'.terminal.queue ∧ ∀ d ∈ s'.terminal.queue, s'.now < d.time) := by
  obtain ⟨-, hqueue, hnone⟩ := command_ok hopen hlines hnow hb hrun
  have hreply := hb.replies s.terminal.attempts line
  dsimp only at hqueue hnone ⊢
  generalize s.terminal.behaviour.reply s.terminal.attempts line = items at hqueue hnone hreply ⊢
  have hasked : (asked s line items).terminal.queue = schedule s.now 0 items := by
    have hdrop : s.terminal.queue.dropWhile (fun d => d.time ≤ s.now) = [] := by
      simpa [List.dropWhile_eq_nil_iff] using hdue
    simp only [asked, hdrop]
    rfl
  have hremains := remains_schedule hreply s.now 0
  have hsorted := (Terminal.schedule_sorted s.now 0 items).1
  have hlatest : Terminal.lastDue (schedule s.now 0 items) = s.now + latest items := by
    rw [lastDue_schedule s.now 0 fun hnil => hremains.1 (congrArg (schedule s.now 0) hnil)]
    omega
  obtain ⟨front, last, hsplit, hfront, hlast⟩ := hremains.split hreply
  rw [hasked, hsplit] at hqueue hnone
  rw [hsplit] at hremains hsorted hlatest
  have hle : ∀ d ∈ front ++ [last], d.time ≤ s.now + latest items := fun d hd =>
    hlatest ▸ Terminal.le_lastDue hsorted hd
  have htime : last.time = s.now + latest items := by simpa [Terminal.lastDue] using hlatest
  rcases gather_prompted (within s (s.now + limit.millisUp)) s.now [] hfront hlast with
    ⟨time, hlater, hg⟩ | ⟨read, left, rfl, hg⟩
  · have hin := (le_of_gather_ending (congrArg Gathered.ending hg)).2
    have := (of_decide_eq_true hin).1
    rw [hg] at hqueue
    exact ⟨fun _ => hqueue, fun hlong => by omega⟩
  · obtain ⟨hend, hhorizon⟩ := hnone (congrArg Gathered.ending hg)
    have hhead := (gather_rest s.now hsorted (congrArg Gathered.ending hg)).2.2
    rw [hg] at hqueue hhead
    have hsuf : left ++ [last] <:+ read ++ left ++ [last] := ⟨read, by simp⟩
    obtain ⟨d, rest, hcons⟩ := List.exists_cons_of_ne_nil (l := left ++ [last]) (by simp)
    have hd := of_decide_eq_false (hhead d (by simp [hcons]))
    have hdle := hle d (hsuf.mem (by simp [hcons]))
    refine ⟨fun hshort => ?_, fun hlong => ?_⟩
    · omega
    · rw [hqueue]
      refine ⟨hremains.of_suffix hsuf (by simp), fun x hx => ?_⟩
      have hdx : d.time ≤ x.time := by
        have hs := hcons ▸ hsorted.sublist hsuf.sublist
        rcases List.mem_cons.1 (hcons ▸ hx) with rfl | hx
        · exact Nat.le_refl _
        · exact (List.pairwise_cons.1 hs).1 x hx
      omega

/-- When the end of a reply is still to come, a command leaves that or its own reply. -/
theorem command_of_remains {earlier : List Timed} (hearlier : IsReply earlier)
    (hremains : Remains earlier s.terminal.queue)
    (hlater : ∀ d ∈ s.terminal.queue, s.now < d.time) :
    Owing earlier s'.terminal.queue ∨
      Owing (s.terminal.behaviour.reply s.terminal.attempts line) s'.terminal.queue := by
  obtain ⟨-, hqueue, -⟩ := command_ok hopen hlines hnow hb hrun
  generalize hreply : s.terminal.behaviour.reply s.terminal.attempts line = items at hqueue ⊢
  have hasked : (asked s line items).terminal.queue =
      s.terminal.queue ++ schedule s.now (Terminal.lastDue s.terminal.queue) items := by
    have hdrop : s.terminal.queue.dropWhile (fun d => d.time ≤ s.now) = s.terminal.queue := by
      rw [List.dropWhile_eq_self_iff]
      exact fun hpos => by simpa using hlater _ (List.getElem_mem hpos)
    simp only [asked, hdrop]
    rfl
  obtain ⟨front, last, hsplit, hfront, hlast⟩ := hremains.split hearlier
  rw [hsplit] at hremains
  rw [hasked, hsplit, List.append_assoc, List.singleton_append] at hqueue
  have hown : Remains items (schedule s.now (Terminal.lastDue (front ++ [last])) items) :=
    hreply ▸ remains_schedule (hb.replies s.terminal.attempts line) _ _
  rcases gather_prompted (within s (s.now + limit.millisUp)) s.now
      (schedule s.now (Terminal.lastDue (front ++ [last])) items) hfront hlast with
    ⟨time, -, hg⟩ | ⟨read, left, rfl, hg⟩
  · rw [hg] at hqueue
    exact .inr ⟨_, [], by simpa using hqueue, hown⟩
  · rw [hg] at hqueue
    exact .inl ⟨left ++ [last], _, by simpa using hqueue,
      hremains.of_suffix ⟨read, by simp⟩ (by simp)⟩

end Command

end Talk

end ProximityLab
