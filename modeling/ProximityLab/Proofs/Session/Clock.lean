import ProximityLab.Proofs.Session.Command
import ProximityLab.Proofs.Session.Labels
import ProximityLab.Proofs.Session.Reply
import ProximityLab.Proofs.Terminal.Framing

/-!
# The clock of a device

A session sets the clock of a device with a line that tells six numbers, and asks for it later.

- **The lines of a reply** (`TellsClock`): a count of seconds and a date, one directly behind the
  other, behind lines that speak of no clock. `deviceTime_of_tellsClock`: both are read from such
  lines, in either order.
- **The device** (`Terminal.KeepsClock`): once it has taken the line that sets its clock, it tells
  the date of that line (`toldDate?_setTimeLine`).
- **The session** (`run_command_of_reply`): a reply that comes in time is captured up to its prompt.
  `time_of_setTime`: what is read is what was set.
-/

namespace ProximityLab

/-! ## The lines of a reply -/

/-- The date that a line tells which sets a clock: its six numbers, joined as dates and times
are. -/
def toldDate? (line : String) : Option String :=
  match Text.split ' ' line with
  | ["time", year, month, day, hour, minute, second] =>
    some (year ++ "-" ++ month ++ "-" ++ day ++ " " ++ hour ++ ":" ++ minute ++ ":" ++ second)
  | _ => none

/-- A line that speaks of no clock. -/
def Silent (line : String) : Prop :=
  Text.contains "Epoch:" line = false ∧ Text.contains "Date:" line = false

/-- A line that ends with a count of seconds. -/
def EndsWithEpoch (n : Nat) (line : String) : Prop :=
  ("Epoch: " ++ toString n).toList <:+ line.toList

/-- A line that ends with a date. -/
def EndsWithDate (date : String) (line : String) : Prop := ("Date: " ++ date).toList <:+ line.toList

/-- Lines in which a clock is told: first some that speak of no clock, then the count of seconds and
the date, one of them directly behind the other, then anything. -/
inductive TellsClock (n : Nat) (date : String) : List String → Prop where
  | epochFirst {before after : List String} {first second : String}
      (hbefore : ∀ line ∈ before, Silent line) (hfirst : EndsWithEpoch n first)
      (hsecond : EndsWithDate date second) : TellsClock n date (before ++ first :: second :: after)
  | dateFirst {before after : List String} {first second : String}
      (hbefore : ∀ line ∈ before, Silent line) (hfirst : EndsWithDate date first)
      (hsecond : EndsWithEpoch n second) : TellsClock n date (before ++ first :: second :: after)

/-- What a line tells is found behind lines that do not have the label. -/
theorem find_of_first {c : Capture} {label : String} {value : List Char → Option (List Char)}
    {v : List Char} {before after : List String} {line : String}
    (hc : c.lines = before ++ line :: after)
    (hbefore : ∀ l ∈ before, valueBehind? label.toList value l.toList = none)
    (hline : valueBehind? label.toList value line.toList = some v) :
    c.find label value = some v := by
  have hnone : before.findSome? (fun l => valueBehind? label.toList value l.toList) = none :=
    List.findSome?_eq_none_iff.2 hbefore
  rw [Capture.find, hc, List.findSome?_append, hnone, List.findSome?_cons, hline]
  rfl

/-- What the next line tells is found, too. -/
theorem find_of_second {c : Capture} {label : String} {value : List Char → Option (List Char)}
    {v : List Char} {before after : List String} {first second : String}
    (hc : c.lines = before ++ first :: second :: after)
    (hbefore : ∀ l ∈ before, valueBehind? label.toList value l.toList = none)
    (hfirst : valueBehind? label.toList value first.toList = none)
    (hsecond : valueBehind? label.toList value second.toList = some v) :
    c.find label value = some v := by
  have hsplit : c.lines = (before ++ [first]) ++ second :: after := by
    rw [hc, List.append_assoc, List.singleton_append]
  exact find_of_first hsplit
    (List.forall_mem_append.2 ⟨hbefore, List.forall_mem_singleton.2 hfirst⟩) hsecond

/-- In a line that ends with a count of seconds, that is found and no date. -/
theorem EndsWithEpoch.found {n : Nat} {line : String} (h : EndsWithEpoch n line) :
    valueBehind? "Epoch:".toList digitsValue? line.toList = some (Nat.toDigits 10 n) ∧
      valueBehind? "Date:".toList dateValue? line.toList = none := by
  have hfound : valueBehind? "Epoch:".toList digitsValue? line.toList =
      some (Nat.toDigits 10 n) := by
    apply epoch_of_suffix
    simpa [EndsWithEpoch, Nat.repr] using h
  exact ⟨hfound, Option.eq_none_iff_forall_ne_some.2 fun _ hdate => not_epoch_of_date hfound hdate⟩

/-- In a line that ends with a date, that is found and no count of seconds. -/
theorem EndsWithDate.found {date line : String}
    (hdate : matchesPicture datePicture date.toList = true) (h : EndsWithDate date line) :
    valueBehind? "Date:".toList dateValue? line.toList = some date.toList ∧
      valueBehind? "Epoch:".toList digitsValue? line.toList = none := by
  have hfound : valueBehind? "Date:".toList dateValue? line.toList = some date.toList := by
    apply date_of_suffix hdate
    simpa [EndsWithDate] using h
  exact ⟨hfound, Option.eq_none_iff_forall_ne_some.2
    fun _ hepoch => not_epoch_of_date hepoch hfound⟩

/-- Both are found, in either order: the line that tells one of them does not tell the other. -/
theorem TellsClock.found {n : Nat} {date : String} {c : Capture}
    (hdate : matchesPicture datePicture date.toList = true) (h : TellsClock n date c.lines) :
    c.find "Epoch:" digitsValue? = some (Nat.toDigits 10 n) ∧
      c.find "Date:" dateValue? = some date.toList := by
  generalize hc : c.lines = lines at h
  cases h with
  | epochFirst hbefore hfirst hsecond =>
    obtain ⟨hepoch, hnoDate⟩ := hfirst.found
    obtain ⟨hdate, -⟩ := hsecond.found hdate
    exact ⟨find_of_first hc (fun l hl => valueBehind?_of_contains (hbefore l hl).1) hepoch,
      find_of_second hc (fun l hl => valueBehind?_of_contains (hbefore l hl).2) hnoDate hdate⟩
  | dateFirst hbefore hfirst hsecond =>
    obtain ⟨hdate, hnoEpoch⟩ := hfirst.found hdate
    obtain ⟨hepoch, -⟩ := hsecond.found
    exact ⟨find_of_second hc (fun l hl => valueBehind?_of_contains (hbefore l hl).1) hnoEpoch
      hepoch, find_of_first hc (fun l hl => valueBehind?_of_contains (hbefore l hl).2) hdate⟩

/-- A number that fits 64 bits is read from its digits. -/
theorem number64?_toDigits {n : Nat} (h : n < 2 ^ 64) : number64? (Nat.toDigits 10 n) = some n := by
  have hall : (Nat.toDigits 10 n).all Numeral.isDigit = true :=
    List.all_eq_true.2 fun _ hc => Numeral.isDigit_of_mem_toDigits hc
  rw [number64?, if_pos hall]
  dsimp only
  rw [Numeral.valueOf_toDigits]
  exact if_pos h

/-- The clock that is told in the lines of a reply is the clock of that reply. -/
theorem deviceTime_of_tellsClock {n : Nat} {d : DateTime} {c : Capture}
    (hyear : 0 ≤ d.year ∧ d.year ≤ 9999) (hvalid : d.isValid = true) (hn : n < 2 ^ 64)
    (h : TellsClock n d.text c.lines) :
    c.deviceTime = ⟨some n, some d⟩ := by
  obtain ⟨hpicture, hread⟩ := DateTime.ofPicture?_text hyear hvalid
  obtain ⟨hepoch, hdate⟩ := h.found hpicture
  rw [Capture.deviceTime, hepoch, hdate, Option.bind_some, Option.bind_some, number64?_toDigits hn,
    hread]

/-- No number is written with a blank. -/
theorem DateTime.not_mem_fields (d : DateTime) : ∀ cs ∈ d.fields, ' ' ∉ cs := by
  have hpadded (width n : Nat) : ' ' ∉ paddedDigits width n := fun h => by
    have hdigit := Numeral.isDigit_of_mem_paddedDigits h
    exact absurd hdigit (by decide)
  have hyear : ' ' ∉ yearChars d.year := by
    unfold yearChars
    split
    · simp [hpadded]
    · split <;> simp [hpadded]
  refine List.forall_mem_cons.2 ⟨hyear, fun cs hcs => ?_⟩
  obtain ⟨n, -, rfl⟩ := List.mem_map.1 hcs
  exact hpadded 2 n

/-- The line that sets a clock tells the date and time that it sets. -/
theorem toldDate?_setTimeLine (d : DateTime) : toldDate? (setTimeLine d) = some d.text := by
  have hsplit : Text.split ' ' (setTimeLine d) = "time" :: d.fields.map String.ofList := by
    rw [Text.split_eq_map]
    have hchars : (setTimeLine d).toList = [' '].intercalate ("time".toList :: d.fields) := by
      simp [setTimeLine, DateTime.spaced, DateTime.fields]
    have hplain : ∀ cs ∈ "time".toList :: d.fields, ' ' ∉ cs :=
      List.forall_mem_cons.2 ⟨by decide, d.not_mem_fields⟩
    rw [hchars, Text.splitOn_intercalate hplain (List.cons_ne_nil _ _)]
    simp
  rw [toldDate?, hsplit]
  apply congrArg some
  simp [DateTime.fields, DateTime.text, String.ext_iff]

/-! ## Asking for the clock -/

/-- A reply in which a clock is told up to its prompt, which comes within some milliseconds. Behind
the prompt may be more. -/
def ClockReply (n : Nat) (date : String) (within : Nat) (items : List Timed) : Prop :=
  ∃ front last more, items = front ++ last :: more ∧ (∀ t ∈ front, t.output.ending? = none) ∧
    last.output.ending? = some .prompt ∧ (∀ t ∈ front ++ [last], t.delay ≤ within) ∧
    TellsClock n date (front.filterMap (·.output.line?))

/-- The line has reached the device, and its terminal is open. -/
def Terminal.HasTaken (t : Terminal) (line : String) : Prop := t.closed = false ∧ line ∈ t.sent

/-- A device that, once it has taken the line, answers the question for the clock with a count of
seconds and with the date that the line tells, all of it within some milliseconds. -/
def Terminal.KeepsClock (t : Terminal) (line : String) (n within : Nat) : Prop :=
  t.HasTaken line → ∃ items date, t.behaviour.respond t.attempts "time" = .accepted items ∧
    toldDate? line = some date ∧ ClockReply n date within items

/-- What the device has taken stays taken, as long as the terminal is open. -/
theorem Terminal.HasTaken.follows {t t' : Terminal} {line : String} (h : t.HasTaken line)
    (hlater : t.Follows t') :
    t'.HasTaken line :=
  ⟨hlater.closed.trans h.1, hlater.sent.subset h.2⟩

namespace Talk

variable {s : Station}

/-- All of a reply that comes in time is read, up to its prompt. -/
theorem gather_schedule {p : Nat → Bool} {now stop : Nat} (hp : ∀ time ≤ stop, p time = true)
    {front more : List Timed} {last : Timed} (hfront : ∀ t ∈ front, t.output.ending? = none)
    (hlast : last.output.ending? = some .prompt)
    (htime : ∀ t ∈ front ++ [last], now + t.delay ≤ stop) {due moment : Nat} (hdue : due ≤ stop)
    (hmoment : moment ≤ stop) :
    ∃ time rest, gather p moment (schedule now due (front ++ last :: more)) =
      ⟨front.filterMap (·.output.line?), some (.prompt, time), rest⟩ := by
  induction front generalizing due moment with
  | nil =>
    have hlate : now + last.delay ≤ stop := htime last (by simp)
    have hin := hp (max moment (max due (now + last.delay))) (by omega)
    rw [List.nil_append, schedule, gather]
    dsimp only
    rw [if_pos hin, hlast]
    exact ⟨_, _, rfl⟩
  | cons t front ih =>
    obtain ⟨ht, hfront⟩ := List.forall_mem_cons.1 hfront
    have hlate : now + t.delay ≤ stop := htime t (by simp)
    have hin := hp (max moment (max due (now + t.delay))) (by omega)
    obtain ⟨time, rest, hrest⟩ := ih hfront (fun x hx => htime x (List.mem_cons_of_mem t hx))
      (show max due (now + t.delay) ≤ stop by omega)
      (show max moment (max due (now + t.delay)) ≤ stop by omega)
    rw [List.cons_append, schedule, gather]
    dsimp only
    rw [if_pos hin, ht, hrest]
    refine ⟨time, rest, ?_⟩
    rw [List.filterMap_cons]
    cases t.output.line? <;> rfl

/-- A command that meets no pending output, and a reply that comes in time. -/
theorem run_command_of_reply {limit : TimeSpan} {line : String} {deadline : Nat}
    {front more : List Timed} {last : Timed} (hopen : s.terminal.closed = false)
    (hquiet : s.terminal.queue = [])
    (hrespond : s.terminal.behaviour.respond s.terminal.attempts line =
      .accepted (front ++ last :: more))
    (hfront : ∀ t ∈ front, t.output.ending? = none) (hlast : last.output.ending? = some .prompt)
    (htime : ∀ t ∈ front ++ [last], t.delay ≤ limit.millisUp)
    (hdeadline : deadlineAfter s.now limit = .ok deadline) (hhorizon : deadline ≤ s.horizon) :
    ((command limit line).run.run s).1 = .ok ⟨front.filterMap (·.output.line?), .prompt⟩ := by
  have hnow : s.now ≤ deadline := le_deadlineAfter hdeadline
  have hspan : s.now + limit.millisUp = deadline := eq_of_deadlineAfter hdeadline
  have hkept : s.terminal.kept s.now = [] := by rw [Terminal.kept, hquiet]; rfl
  have hstale : ∀ d ∈ s.terminal.stale s.now, d.output.fault? = none := by
    rw [Terminal.stale, hquiet, List.takeWhile_nil]
    exact List.forall_mem_nil _
  rw [run_command_of_stale (by omega) hstale, Terminal.send_of_accepted
    (t := { s.terminal with queue := s.terminal.kept s.now }) s.now hopen hrespond]
  dsimp only
  rw [hdeadline, hkept]
  dsimp only
  have hin : ∀ time ≤ deadline, within s deadline time = true := fun time htime =>
    decide_eq_true ⟨htime, by omega⟩
  have hcome : ∀ t ∈ front ++ [last], s.now + t.delay ≤ deadline := fun t ht => by
    have hdelay := htime t ht
    omega
  obtain ⟨time, rest, hgather⟩ : ∃ time rest, gather (within s deadline) s.now
      (schedule s.now 0 (front ++ last :: more)) =
      ⟨front.filterMap (·.output.line?), some (.prompt, time), rest⟩ :=
    gather_schedule hin hfront hlast hcome (Nat.zero_le _) hnow
  have hqueue : Terminal.enqueue s.now (front ++ last :: more) [] =
    schedule s.now 0 (front ++ last :: more) := rfl
  rw [hqueue, hgather]
  rfl

/-- A command that is not cut short was sent over an open terminal, and the device has taken its
line. -/
theorem hasTaken_of_command {limit : TimeSpan} {line : String} {c : Capture} {s' : Station}
    (ht : s.terminal.Timeline) (hnow : s.now ≤ s.horizon)
    (hrun : (command limit line).run.run s = (.ok c, s')) : s'.terminal.HasTaken line := by
  have hexchange := exchange_command ht hnow limit line
  rw [hrun] at hexchange
  cases hexchange with
  | captured hopen => exact ⟨hopen, by simp [Terminal.sent, answered]⟩

theorem keeps_setTime (limit : TimeSpan) (d : DateTime) : Keeps (setTime limit d) :=
  keeps_command limit (setTimeLine d)

/-- **A clock is read as it was set.** The clock is set, and that succeeds, or the line has at least
reached the device. From then on, whatever else the session did, the device keeps the clock that the
line tells. Asked for it when no output is pending, it is heard in full before the deadline, and
what is read are the count of seconds that it told, and exactly the date and time that were set. -/
theorem time_of_setTime {s' u : Station} {result : Except Halt Capture} {limit : TimeSpan}
    {d : DateTime} {n deadline : Nat} (ht : s.terminal.Timeline) (hnow : s.now ≤ s.horizon)
    (hset : (setTime limit d).run.run s = (result, s'))
    (htaken : (∃ c, result = .ok c) ∨ s'.terminal.HasTaken (setTimeLine d))
    (hlater : s'.terminal.Follows u.terminal) (hquiet : u.terminal.queue = [])
    (hdeadline : deadlineAfter u.now limit = .ok deadline) (hhorizon : deadline ≤ u.horizon)
    (hkeeps : u.terminal.KeepsClock (setTimeLine d) n limit.millisUp)
    (hyear : 0 ≤ d.year ∧ d.year ≤ 9999) (hvalid : d.isValid = true) (hn : n < 2 ^ 64) :
    ((time limit).run.run u).1 = .ok ⟨some n, some d⟩ := by
  have htaken : s'.terminal.HasTaken (setTimeLine d) := by
    rcases htaken with ⟨c, rfl⟩ | htaken
    · exact hasTaken_of_command ht hnow hset
    · exact htaken
  have htaken := htaken.follows hlater
  obtain ⟨items, date, hrespond, htold, front, last, more, rfl, hfront, hlast, htime, htells⟩ :=
    hkeeps htaken
  rw [toldDate?_setTimeLine] at htold
  obtain rfl := Option.some.inj htold
  have hreply := run_command_of_reply htaken.1 hquiet hrespond hfront hlast htime hdeadline hhorizon
  rw [time, run_map, hreply]
  exact congrArg Except.ok (deviceTime_of_tellsClock hyear hvalid hn htells)

/-- What a device with a clock answers that tells the date first, and more in front of the count of
seconds. -/
def clockItems : List Timed :=
  [⟨0, .line "clock:"⟩, ⟨3, .line "[rtc] Date: 0000-02-29 08:05:09"⟩,
    ⟨40, .line "Epoch: 5 Epoch: 18446744073709551615"⟩, ⟨40, .line "Epoch: 7"⟩, ⟨50, .line "> "⟩]

/-- The station of a device that tells the leap day of the year 0 and the largest count of
seconds. -/
def clocked : Station where
  now := 10
  horizon := 1000
  terminal :=
    { behaviour :=
        .scripted [] [⟨"time ", none, .accepted [⟨5, .line ">"⟩]⟩,
          ⟨"time", none, .accepted clockItems⟩] none
      queue := []
      trials := []
      closed := false
      closes := 0 }

/-- The count of seconds is that at the end of its line, and what is behind both of them is not
looked at. -/
theorem clockReply_clockItems :
    ClockReply 18446744073709551615 "0000-02-29 08:05:09" 50 clockItems := by
  refine ⟨clockItems.take 4, ⟨50, .line "> "⟩, [], rfl,
    by decide +kernel, by decide +kernel, by decide +kernel, ?_⟩
  exact @TellsClock.dateFirst _ _ ["clock:"] ["Epoch: 7"] _ _ (by unfold Silent; decide +kernel)
    (by unfold EndsWithDate; decide +kernel) (by unfold EndsWithEpoch; decide +kernel)

/-- A clock that is set to that day and read at once, from a device that tells the date first. -/
theorem time_of_setTime_clocked :
    let d : DateTime := ⟨0, 2, 29, 8, 5, 9⟩
    let limit : TimeSpan := .ofMillis 50
    ∃ s', (setTime limit d).run.run clocked = (.ok ⟨[], .prompt⟩, s') ∧ s'.now = 15 ∧
      ((time limit).run.run s').1 = .ok ⟨some 18446744073709551615, some d⟩ := by
  intro d limit
  have ht : clocked.terminal.Timeline := by simp [Terminal.Timeline, clocked]
  have hdate : toldDate? (setTimeLine d) = some "0000-02-29 08:05:09" := by decide +kernel
  have hcapture : ((setTime limit d).run.run clocked).1 = .ok ⟨[], .prompt⟩ := by decide +kernel
  have hstation : let s' := ((setTime limit d).run.run clocked).2
      s'.now = 15 ∧ s'.horizon = 1000 ∧ s'.terminal.queue = [] ∧
        s'.terminal.attempts = ["time 0000 02 29 08 05 09"] := by
    decide +kernel
  have hfollows := keeps_setTime limit d clocked
  generalize hset : (setTime limit d).run.run clocked = r at hcapture hstation hfollows
  obtain ⟨result, s'⟩ := r
  obtain rfl : result = .ok ⟨[], .prompt⟩ := hcapture
  obtain ⟨hnow : s'.now = 15, hhorizon : s'.horizon = 1000, hquiet, hattempts⟩ := hstation
  have hspan : limit.millisUp = 50 := by decide
  have hkeeps : s'.terminal.KeepsClock (setTimeLine d) 18446744073709551615 limit.millisUp :=
    fun _ => by
      rw [hfollows.behaviour, hattempts, hspan]
      exact ⟨clockItems, _, rfl, hdate, clockReply_clockItems⟩
  have hdeadline : deadlineAfter s'.now limit = .ok 65 := by
    rw [hnow]
    decide +kernel
  exact ⟨s', rfl, hnow,
    time_of_setTime ht (by decide) hset (.inl ⟨_, rfl⟩) (.refl s'.terminal) hquiet hdeadline
    (by omega) hkeeps (by decide) (by decide) (by decide)⟩

end Talk

end ProximityLab
