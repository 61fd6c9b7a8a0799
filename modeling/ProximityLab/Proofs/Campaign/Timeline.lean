import ProximityLab.Campaign.Vigil
import Mathlib.Data.List.Basic

/-!
# Timelines of campaign output

What a vigil finds in the queue of a terminal, said of the whole timeline: `readFrom now queue` is
the queue as someone sees it who reads from `now` on, `firstEnding?` the first item that ends a
campaign and `body` the items in front of it, as far as their moments are admitted.

- **Reading** (`gather_lines`, `gather_ending`): the lines that are gathered are those of the body,
  and the ending is the first one of the timeline if its moment is admitted.
- **What is left** (`gather_rest`): if no ending is found, the timeline is the body and what is
  left.
- **Replies** (`schedule_of_le`): a reply to a line that is sent when all earlier output is due does
  not depend on that output.
-/

namespace ProximityLab

/-- The queue comes in the order of its moments. -/
abbrev Sorted (queue : List Due) : Prop := queue.Pairwise fun a b => a.time ≤ b.time

/-- The moments that are admitted reach back to the beginning. -/
def Backward (p : Nat → Bool) : Prop := ∀ a b, a ≤ b → p b = true → p a = true

/-- A queue as it is read from a moment on: what is due by then counts as due at that moment. -/
def readFrom (now : Nat) (queue : List Due) : List Due :=
  queue.map fun d => ⟨max now d.time, d.output⟩

/-- The first item of a timeline that ends a campaign. -/
def firstEnding? (timeline : List Due) : Option (Ending × Nat) :=
  timeline.findSome? fun d => d.output.ending?.map (·, d.time)

/-- The items at admitted moments in front of the first ending. -/
def body (p : Nat → Bool) (timeline : List Due) : List Due :=
  timeline.takeWhile fun d => d.output.ending?.isNone && p d.time

/-- The lines of a timeline. -/
def linesOf (timeline : List Due) : List String := timeline.filterMap (·.output.line?)

@[simp] theorem readFrom_nil (now : Nat) : readFrom now [] = [] := rfl

@[simp] theorem readFrom_cons (now : Nat) (d : Due) (queue : List Due) :
    readFrom now (d :: queue) = ⟨max now d.time, d.output⟩ :: readFrom now queue := rfl

theorem readFrom_append (now : Nat) (a b : List Due) :
    readFrom now (a ++ b) = readFrom now a ++ readFrom now b := List.map_append

/-- Output that is due later is seen at its own moment. -/
theorem readFrom_of_le {now : Nat} {queue : List Due} (h : ∀ d ∈ queue, now ≤ d.time) :
    readFrom now queue = queue := by
  refine (List.map_congr_left fun d hd => ?_).trans (List.map_id _)
  rw [Nat.max_eq_right (h d hd)]
  rfl

/-- Having read what is due earlier makes no difference. -/
theorem readFrom_max {now time : Nat} {queue : List Due} (h : ∀ d ∈ queue, time ≤ d.time) :
    readFrom (max now time) queue = readFrom now queue := by
  refine List.map_congr_left fun d hd => ?_
  rw [Nat.max_assoc, Nat.max_eq_right (h d hd)]

/-- From a later moment on, output looks the same if none of it is due by then. -/
theorem readFrom_of_head {now later : Nat} (hle : now ≤ later) {queue : List Due}
    (h : Sorted queue) (hhead : ∀ d ∈ queue.head?, later ≤ max now d.time) :
    readFrom later queue = readFrom now queue := by
  cases queue with
  | nil => rfl
  | cons d queue =>
    have hd := hhead d rfl
    refine List.map_congr_left fun x hx => ?_
    have hdx : d.time ≤ x.time := by
      rcases List.mem_cons.1 hx with rfl | hx
      · exact Nat.le_refl _
      · exact (List.pairwise_cons.1 h).1 x hx
    rw [show max later x.time = max now x.time by omega]

theorem sorted_readFrom (now : Nat) {queue : List Due} (h : Sorted queue) :
    Sorted (readFrom now queue) := by
  refine List.pairwise_map.2 (h.imp fun {a b} hab => ?_)
  dsimp only
  omega

theorem le_of_mem_readFrom {now : Nat} {queue : List Due} {d : Due} (h : d ∈ readFrom now queue) :
    now ≤ d.time := by
  obtain ⟨x, -, rfl⟩ := List.mem_map.1 h
  exact Nat.le_max_left _ _

theorem firstEnding?_cons (d : Due) (timeline : List Due) :
    firstEnding? (d :: timeline) =
      match d.output.ending? with
      | some e => some (e, d.time)
      | none => firstEnding? timeline := by
  cases h : d.output.ending? <;> simp [firstEnding?, h]

/-- An ending is an item of the timeline. -/
theorem mem_of_firstEnding? {timeline : List Due} {e : Ending} {time : Nat}
    (h : firstEnding? timeline = some (e, time)) :
    ∃ d ∈ timeline, d.time = time ∧ d.output.ending? = some e := by
  obtain ⟨d, hd, hx⟩ := List.exists_of_findSome?_eq_some h
  obtain ⟨e', he, hp⟩ := Option.map_eq_some_iff.1 hx
  obtain ⟨rfl, rfl⟩ := Prod.mk.inj hp
  exact ⟨d, hd, rfl, he⟩

/-- Items without an ending in them can be read first. -/
theorem firstEnding?_append {front : List Due} (rest : List Due)
    (h : ∀ d ∈ front, d.output.ending? = none) :
    firstEnding? (front ++ rest) = firstEnding? rest := by
  induction front with
  | nil => rfl
  | cons d front ih =>
    rw [List.cons_append, firstEnding?_cons, h d List.mem_cons_self]
    exact ih fun x hx => h x (List.mem_cons_of_mem _ hx)

/-- The body of a timeline has no ending in it. -/
theorem ending?_of_mem_body {p : Nat → Bool} {timeline : List Due} {d : Due}
    (h : d ∈ body p timeline) : d.output.ending? = none ∧ p d.time = true := by
  have h := List.all_eq_true.1 (List.all_takeWhile (l := timeline)) d h
  simpa using h

theorem body_append {p : Nat → Bool} {front : List Due} (rest : List Due)
    (h : ∀ d ∈ front, d.output.ending? = none ∧ p d.time = true) :
    body p (front ++ rest) = front ++ body p rest :=
  List.takeWhile_append_of_pos fun d hd => by simp [h d hd]

theorem body_congr {p q : Nat → Bool} {timeline : List Due}
    (h : ∀ d ∈ timeline, p d.time = q d.time) : body p timeline = body q timeline := by
  induction timeline with
  | nil => rfl
  | cons d timeline ih =>
    simp only [body, List.takeWhile_cons, h d List.mem_cons_self]
    split
    · exact congrArg _ (ih fun x hx => h x (List.mem_cons_of_mem _ hx))
    · rfl

/-- Once the first ending is admitted, so is everything in front of it. -/
theorem body_of_ending {p : Nat → Bool} (hback : Backward p) {timeline : List Due}
    (h : Sorted timeline) {e : Ending} {time : Nat} (he : firstEnding? timeline = some (e, time))
    (hp : p time = true) : body p timeline = body (· ≤ time) timeline := by
  induction timeline with
  | nil => rfl
  | cons d timeline ih =>
    rw [firstEnding?_cons] at he
    cases hd : d.output.ending? with
    | some e' => simp [body, hd]
    | none =>
      simp only [hd] at he
      obtain ⟨x, hx, rfl, -⟩ := mem_of_firstEnding? he
      have hdx : d.time ≤ x.time := (List.pairwise_cons.1 h).1 x hx
      simp only [body, List.takeWhile_cons, hd, hback _ _ hdx hp, hdx, decide_true,
        Option.isNone_none, Bool.and_self, if_true]
      exact congrArg _ (ih (List.pairwise_cons.1 h).2 he)

theorem linesOf_append (a b : List Due) : linesOf (a ++ b) = linesOf a ++ linesOf b :=
  List.filterMap_append

/-! ## Reading a queue -/

theorem gather_lines {p : Nat → Bool} {queue : List Due} (now : Nat) (h : Sorted queue) :
    (gather p now queue).lines = linesOf (body p (readFrom now queue)) := by
  induction queue generalizing now with
  | nil => rfl
  | cons d queue ih =>
    have hrest := ih (max now d.time) (List.pairwise_cons.1 h).2
    rw [readFrom_max (List.pairwise_cons.1 h).1] at hrest
    unfold gather
    by_cases hp : p (max now d.time) = true
    · cases he : d.output.ending? with
      | some e => simp [hp, he, body, linesOf]
      | none =>
        simp only [hp, he, hrest, body, linesOf, readFrom_cons, List.takeWhile_cons,
          Option.isNone_none, Bool.and_self, if_true, List.filterMap_cons]
        cases d.output.line? <;> rfl
    · simp [hp, body, linesOf]

theorem gather_ending {p : Nat → Bool} (hback : Backward p) {queue : List Due} (now : Nat)
    (h : Sorted queue) :
    (gather p now queue).ending = (firstEnding? (readFrom now queue)).filter fun e => p e.2 := by
  induction queue generalizing now with
  | nil => rfl
  | cons d queue ih =>
    have hrest := ih (max now d.time) (List.pairwise_cons.1 h).2
    rw [readFrom_max (List.pairwise_cons.1 h).1] at hrest
    rw [readFrom_cons, firstEnding?_cons]
    unfold gather
    by_cases hp : p (max now d.time) = true
    · cases he : d.output.ending? with
      | some e => simp [hp, Option.filter]
      | none => simp [hp, hrest]
    · cases d.output.ending? with
      | some e => simp [hp, Option.filter]
      | none =>
        -- a later ending is not admitted either
        symm
        simp only [hp, Bool.false_eq_true, if_false, Option.filter_eq_none_iff]
        rintro ⟨e, time⟩ hx hpx
        obtain ⟨y, hy, hyx, -⟩ := mem_of_firstEnding? hx
        obtain ⟨z, hz, rfl⟩ := List.mem_map.1 hy
        have hdz := (List.pairwise_cons.1 h).1 z hz
        refine hp (hback _ _ ?_ hpx)
        rw [← hyx]
        dsimp only
        omega

/-- What is left when no ending was found: it is not admitted, and the timeline is what was read and
what is left. -/
theorem gather_rest {p : Nat → Bool} {queue : List Due} (now : Nat) (h : Sorted queue)
    (hnone : (gather p now queue).ending = none) :
    readFrom now queue =
        body p (readFrom now queue) ++ readFrom now (gather p now queue).rest ∧
      (gather p now queue).rest <:+ queue ∧
      ∀ d ∈ (gather p now queue).rest.head?, p (max now d.time) = false := by
  induction queue generalizing now with
  | nil => simp [gather, body]
  | cons d queue ih =>
    have hrest := ih (max now d.time) (List.pairwise_cons.1 h).2
    rw [readFrom_max (List.pairwise_cons.1 h).1] at hrest
    unfold gather at hnone ⊢
    by_cases hp : p (max now d.time) = true
    · cases he : d.output.ending? with
      | some e => simp [hp, he] at hnone
      | none =>
        simp only [hp, he, if_true] at hnone ⊢
        obtain ⟨heq, hsuf, hhead⟩ := hrest hnone
        have hlater : ∀ x ∈ (gather p (max now d.time) queue).rest, d.time ≤ x.time := fun x hx =>
          (List.pairwise_cons.1 h).1 x (hsuf.mem hx)
        rw [readFrom_max hlater] at heq
        refine ⟨?_, hsuf.trans (List.suffix_cons _ _), fun x hx => ?_⟩
        · rw [readFrom_cons, body, List.takeWhile_cons, if_pos (by simp [he, hp]), List.cons_append]
          exact congrArg _ heq
        · have hx' := hhead x hx
          rwa [Nat.max_assoc, Nat.max_eq_right (hlater x (List.mem_of_mem_head? hx))] at hx'
    · simp [hp, body]

/-- An ending that is found is not in the past, and its moment is admitted. -/
theorem le_of_gather_ending {p : Nat → Bool} {now : Nat} {queue : List Due} {e : Ending}
    {time : Nat} (h : (gather p now queue).ending = some (e, time)) :
    now ≤ time ∧ p time = true := by
  induction queue generalizing now with
  | nil => cases h
  | cons d queue ih =>
    unfold gather at h
    dsimp only at h
    split at h
    · rename_i hp
      split at h
      · obtain ⟨-, rfl⟩ := Prod.mk.inj (Option.some.inj h)
        exact ⟨Nat.le_max_left _ _, hp⟩
      · obtain ⟨hle, hpt⟩ := ih h
        exact ⟨Nat.le_trans (Nat.le_max_left _ _) hle, hpt⟩
    · cases h

/-! ## Deadlines and replies -/

/-- A deadline lies a span ahead, as long as there are instants. -/
theorem deadlineAfter_spec (now : Nat) (d : TimeSpan) :
    deadlineAfter now d = .ok (now + d.millisUp) ∨ deadlineAfter now d = .error .overflow := by
  unfold deadlineAfter
  split
  · exact .inl rfl
  · exact .inr rfl

theorem eq_of_deadlineAfter {now moment : Nat} {d : TimeSpan}
    (h : deadlineAfter now d = .ok moment) :
    now + d.millisUp = moment := by
  rcases deadlineAfter_spec now d with hs | hs <;> rw [hs] at h
  · exact Except.ok.inj h
  · cases h

theorem le_deadlineAfter {now moment : Nat} {d : TimeSpan} (h : deadlineAfter now d = .ok moment) :
    now ≤ moment :=
  eq_of_deadlineAfter h ▸ Nat.le_add_right _ _

theorem schedule_of_le {now last : Nat} (h : last ≤ now) (items : List Timed) :
    schedule now last items = schedule now now items := by
  cases items with
  | nil => rfl
  | cons t items => simp only [schedule, Nat.max_eq_right (show last ≤ now + t.delay by omega),
      Nat.max_eq_right (show now ≤ now + t.delay by omega)]

/-- Output that is still there says as much about the end of the queue as all of it. -/
theorem lastDue_of_suffix {queue rest : List Due} (h : rest <:+ queue) (hne : rest ≠ []) :
    Terminal.lastDue rest = Terminal.lastDue queue := by
  obtain ⟨front, rfl⟩ := h
  simp [Terminal.lastDue, List.getLast?_append, List.getLast?_eq_some_getLast hne]

theorem le_of_mem_schedule {now last : Nat} {items : List Timed} {d : Due}
    (h : d ∈ schedule now last items) : now ≤ d.time := by
  induction items generalizing last with
  | nil => simp [schedule] at h
  | cons t items ih =>
    rcases List.mem_cons.1 h with rfl | h
    · dsimp only
      omega
    · exact ih h

/-- Scheduling changes no output. -/
theorem schedule_output (now last : Nat) (items : List Timed) :
    (schedule now last items).map (·.output) = items.map (·.output) := by
  induction items generalizing last with
  | nil => rfl
  | cons t items ih => exact congrArg _ (ih _)

theorem exists_of_mem_schedule {now last : Nat} {items : List Timed} {d : Due}
    (h : d ∈ schedule now last items) : ∃ t ∈ items, t.output = d.output := by
  have hmem : d.output ∈ items.map (·.output) := by
    rw [← schedule_output now last]
    exact List.mem_map_of_mem h
  exact List.mem_map.1 hmem

end ProximityLab
