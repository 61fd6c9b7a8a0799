import ProximityLab.Proofs.Terminal.Chunks
import ProximityLab.Proofs.Terminal.Findings

/-!
# Records behind prompts

The shell prints its prompt without a line feed, so what comes next shares its line. There are two
ways for a prompt to get off the line: the framer hands it out when a piece of the output ends at it
(`push`), or it is taken off in front of the complete line (`linesOfBytes`). The second way is for
one prompt only.

- **One line** (`found_line`): if no piece ends at a prompt the line is read when it is complete.
  Otherwise the first prompt at which one ends is handed out, and the pieces behind it are framed as
  if nothing had been in front of them.
- **Any number of prompts** (`found_behind_prompts`): the record behind them is found if the pieces
  clear them off the line (`Cleared`), and nothing is found otherwise.
-/

namespace ProximityLab

open Text

theorem classifyLine_of_opensWithPrompt {cs : List Char} (h : Framer.OpensWithPrompt cs) :
    classifyLine (String.ofList cs) = none := by
  obtain ⟨out, hout⟩ := List.head?_eq_some_iff.1 h
  have htrim : trimBlanks cs = trimBlanks ('>' :: out) := by
    rw [← List.takeWhile_append_dropWhile (p := isBlank) (l := cs), hout]
    exact trimBlanks_prepend (List.all_eq_true.1 List.all_takeWhile) _
  rw [classifyLine_congr htrim]
  exact classifyLine_of_prompt out

theorem classifyLines_of_some {line : String} {record : Record}
    (h : classifyLine line = some record) :
    classifyLines [line] = .ofRecord record := by
  rw [classifyLines, h]
  exact Findings.append_empty _

namespace Framer

/-! ## Pushing a line -/

/-- The lines that a sequence of chunks completes, and what is left of the framer. -/
def pushAll (f : Framer) : List (List UInt8) → List String × Framer
  | [] => ([], f)
  | chunk :: chunks =>
    let (lines, f) := f.push chunk
    let (later, f) := f.pushAll chunks
    (lines ++ later, f)

/-- What is found in the lines that pieces of a text complete, with a part of a line pending. -/
def found (p : List Char) (pieces : List (List Char)) : Findings :=
  classifyLines (pushAll ⟨p.flatMap encodeChar⟩ (pieces.map (·.flatMap encodeChar))).1

theorem found_cons {p piece rest : List Char} {lines : List String}
    (h : push ⟨p.flatMap encodeChar⟩ (piece.flatMap encodeChar) =
      (lines, ⟨rest.flatMap encodeChar⟩))
    (pieces : List (List Char)) :
    found p (piece :: pieces) = classifyLines lines ++ found rest pieces := by
  rw [found, List.map_cons, pushAll, h]
  exact classifyLines_append lines _

section Piece

variable {p piece : List Char} (hfeed : '\n' ∉ p ++ piece) (hclean : replacement ∉ p ++ piece)
include hfeed hclean

/-- A piece that does not complete the line is handed out if a prompt is on it, else it is kept. -/
theorem push_open : push ⟨p.flatMap encodeChar⟩ (piece.flatMap encodeChar) =
    if isPrompt (String.ofList (p ++ piece)) then ([prompt], empty)
    else ([], ⟨(p ++ piece).flatMap encodeChar⟩) := by
  obtain ⟨closed, rest, hsplit, -, -, -, hpush⟩ := push_encode hclean
  rw [splitOn_of_not_mem hfeed] at hsplit
  obtain ⟨rfl, hrest⟩ :=
    List.append_inj' (show [] ++ [p ++ piece] = closed ++ [rest] from hsplit) rfl
  rw [hpush, ← List.singleton_inj.1 hrest]
  rfl

theorem found_of_prompt (h : isPrompt (String.ofList (p ++ piece)) = true)
    (pieces : List (List Char)) :
    found p (piece :: pieces) = found [] pieces := by
  have hpush := push_open hfeed hclean
  rw [if_pos h] at hpush
  have hnone : classifyLines [prompt] = .empty := classifyLines_of_none (classifyLine_of_prompt [])
  have hfound : found p (piece :: pieces) = classifyLines [prompt] ++ found [] pieces :=
    found_cons hpush pieces
  rw [hfound, hnone, Findings.empty_append]

theorem found_of_pending (h : ¬ isPrompt (String.ofList (p ++ piece)) = true)
    (pieces : List (List Char)) :
    found p (piece :: pieces) = found (p ++ piece) pieces := by
  have hpush := push_open hfeed hclean
  rw [if_neg h] at hpush
  exact found_cons hpush pieces

end Piece

/-- A piece that completes the line leaves nothing. -/
theorem found_of_complete {p piece line : List Char} (h : p ++ piece = line ++ ['\n'])
    (hfeed : '\n' ∉ line) (hclean : replacement ∉ line) (pieces : List (List Char)) :
    found p (piece :: pieces) = classifyLines [String.ofList (bare line)] ++ found [] pieces := by
  have hclean' : replacement ∉ p ++ piece := by
    rw [h]
    simpa using ⟨hclean, by decide⟩
  obtain ⟨closed, rest, hsplit, -, -, -, hpush⟩ := push_encode hclean'
  have hline : [line] ++ [[]] = closed ++ [rest] := by
    rw [← hsplit, h, splitOn_append_cons hfeed]
    rfl
  obtain ⟨rfl, hrest⟩ := List.append_inj' hline rfl
  obtain rfl := List.singleton_inj.1 hrest
  have hempty : isPrompt (String.ofList []) = false := by decide
  rw [hempty, if_neg Bool.false_ne_true] at hpush
  rw [found_cons hpush, List.map_singleton, List.flatMap_singleton, classifyLines_linesOfBytes,
    lenientChars_flatMap hclean]

/-- Nothing is found in nothing. -/
theorem found_nothing {pieces : List (List Char)} (h : pieces.flatten = []) :
    found [] pieces = .empty := by
  induction pieces with
  | nil => rfl
  | cons piece pieces ih =>
    obtain ⟨rfl, h⟩ := List.append_eq_nil_iff.1 h
    rw [found_of_pending (by simp) (by simp) (by decide)]
    exact ih h

/-! ## The ends of pieces -/

/-- What stands in front of each end of a piece. -/
def ends (pieces : List (List Char)) : List (List Char) := pieces.inits.map List.flatten

theorem mem_ends {pieces : List (List Char)} {front : List Char} :
    front ∈ ends pieces ↔ ∃ before after, pieces = before ++ after ∧ before.flatten = front := by
  rw [ends, List.mem_map]
  constructor
  · rintro ⟨before, hbefore, hflatten⟩
    obtain ⟨after, rfl⟩ := (List.mem_inits _ _).1 hbefore
    exact ⟨before, after, rfl, hflatten⟩
  · rintro ⟨before, after, rfl, hflatten⟩
    exact ⟨before, (List.mem_inits _ _).2 (List.prefix_append _ _), hflatten⟩

theorem mem_ends_cons {piece front : List Char} {pieces : List (List Char)} :
    front ∈ ends (piece :: pieces) ↔ front = [] ∨ ∃ more ∈ ends pieces, front = piece ++ more := by
  simp [ends, eq_comm]

theorem eq_nil_of_mem_ends {pieces : List (List Char)} (h : pieces.flatten = []) {front : List Char}
    (hfront : front ∈ ends pieces) : front = [] := by
  obtain ⟨before, after, rfl, rfl⟩ := mem_ends.1 hfront
  rw [List.flatten_append] at h
  exact (List.append_eq_nil_iff.1 h).1

/-- Behind a number of pieces, the ends are those of the other pieces. -/
theorem append_mem_ends {front back : List (List Char)} {more : List Char} :
    front.flatten ++ more ∈ ends (front ++ back) ↔ more ∈ ends back := by
  simp only [mem_ends]
  constructor
  · rintro ⟨before, after, hpieces, hmore⟩
    rcases List.append_eq_append_iff.1 hpieces with ⟨between, rfl, rfl⟩ | ⟨between, rfl, rfl⟩
    · rw [List.flatten_append] at hmore
      exact ⟨between, after, rfl, List.append_cancel_left hmore⟩
    · have hnil : between.flatten ++ more = [] := by
        refine (List.append_right_inj before.flatten).1 ?_
        rw [← List.append_assoc, ← List.flatten_append, hmore, List.append_nil]
      exact ⟨[], back, rfl, (List.append_eq_nil_iff.1 hnil).2.symm⟩
  · rintro ⟨before, after, rfl, rfl⟩
    exact ⟨front ++ before, after, by rw [List.append_assoc], List.flatten_append⟩

/-- The first end of a piece at which the framer hands out a prompt cuts the pieces in two. -/
structure HandsOut (p : List Char) (pieces front back : List (List Char)) : Prop where
  pieces_eq : pieces = front ++ back
  prompt : isPrompt (String.ofList (p ++ front.flatten)) = true
  first : ∀ e ∈ ends pieces, isPrompt (String.ofList (p ++ e)) = true → front.flatten <+: e

theorem HandsOut.cons {p piece : List Char} {pieces front back : List (List Char)}
    (h : HandsOut (p ++ piece) pieces front back) (hpending : ¬ isPrompt (String.ofList p) = true) :
    HandsOut p (piece :: pieces) (piece :: front) back := by
  refine ⟨by rw [h.pieces_eq, List.cons_append], ?_, fun e he hprompt => ?_⟩
  · rw [List.flatten_cons, ← List.append_assoc]
    exact h.prompt
  · rcases mem_ends_cons.1 he with rfl | ⟨more, hmore, rfl⟩
    · rw [List.append_nil] at hprompt
      exact absurd hprompt hpending
    · rw [← List.append_assoc] at hprompt
      exact (List.prefix_append_right_inj piece).2 (h.first more hmore hprompt)

/-- With the line feed, the line is complete and nothing comes behind. -/
theorem complete_of_mem {now later line : List Char} (h : now ++ later = line ++ ['\n'])
    (hfeed : '\n' ∉ line) (hnow : '\n' ∈ now) : now = line ++ ['\n'] ∧ later = [] := by
  rcases List.append_eq_append_iff.1 h with ⟨more, rfl, -⟩ | ⟨more, rfl, hmore⟩
  · exact absurd (List.mem_append_left more hnow) hfeed
  · rcases List.append_eq_singleton_iff.1 hmore.symm with ⟨rfl, -⟩ | ⟨rfl, hlater⟩
    · exact absurd (by simpa using hnow) hfeed
    · exact ⟨rfl, hlater⟩

/-- **A line is read when it is complete**, or a prompt in front of it is handed out before, and
what comes behind it is framed alone. -/
theorem found_line {p line : List Char} {pieces : List (List Char)}
    (h : p ++ pieces.flatten = line ++ ['\n']) (hp : '\n' ∉ p) (hfeed : '\n' ∉ line)
    (hclean : replacement ∉ line) (hpending : ¬ isPrompt (String.ofList p) = true)
    (hline : ¬ isPrompt (String.ofList line) = true) :
    ((∀ e ∈ ends pieces, ¬ isPrompt (String.ofList (p ++ e)) = true) ∧
        found p pieces = classifyLines [String.ofList (bare line)]) ∨
      ∃ front back, HandsOut p pieces front back ∧ found p pieces = found [] back := by
  induction pieces generalizing p with
  | nil => exact absurd (by rw [← List.append_nil p, ← List.flatten_nil, h]; simp) hp
  | cons piece pieces ih =>
    rw [List.flatten_cons, ← List.append_assoc] at h
    by_cases hnow : '\n' ∈ p ++ piece
    · obtain ⟨hcomplete, hnothing⟩ := complete_of_mem h hfeed hnow
      refine .inl ⟨fun e he => ?_, ?_⟩
      · rcases mem_ends_cons.1 he with rfl | ⟨more, hmore, rfl⟩
        · rw [List.append_nil]
          exact hpending
        · rw [← List.append_assoc, hcomplete, eq_nil_of_mem_ends hnothing hmore, List.append_nil,
            isPrompt_ofList, trimBlanks_append (List.forall_mem_singleton.2 (by decide)),
            ← isPrompt_ofList]
          exact hline
      · rw [found_of_complete hcomplete hfeed hclean, found_nothing hnothing, Findings.append_empty]
    · have hclean' : replacement ∉ p ++ piece := fun hmem => by
        have hmem := h ▸ List.mem_append_left pieces.flatten hmem
        exact absurd hmem (by simpa using ⟨hclean, by decide⟩)
      by_cases hprompt : isPrompt (String.ofList (p ++ piece)) = true
      · refine .inr ⟨[piece], pieces, ⟨rfl, by simpa using hprompt, fun e he hpe => ?_⟩,
          found_of_prompt hnow hclean' hprompt pieces⟩
        rcases mem_ends_cons.1 he with rfl | ⟨more, -, rfl⟩
        · rw [List.append_nil] at hpe
          exact absurd hpe hpending
        · simp
      · rw [found_of_pending hnow hclean' hprompt]
        rcases ih h hnow hprompt with ⟨hnone, hread⟩ | ⟨front, back, hout, hread⟩
        · refine .inl ⟨fun e he => ?_, hread⟩
          rcases mem_ends_cons.1 he with rfl | ⟨more, hmore, rfl⟩
          · rw [List.append_nil]
            exact hpending
          · rw [← List.append_assoc]
            exact hnone more hmore
        · exact .inr ⟨piece :: front, back, hout.cons hpending, hread⟩

/-! ## A line behind prompts -/

/-- The first prompt on a line is its first character that is not blank. -/
theorem opensWithPrompt_of_blanks {before : List Char} (h : ∀ c ∈ before, isBlank c = true)
    (behind : List Char) :
    OpensWithPrompt (before ++ '>' :: behind) := by
  rw [opensWithPrompt_prepend h]
  rfl

/-- A prompt with blanks in front is one if nothing but blanks is behind it. -/
theorem isPrompt_blanks_iff {before behind : List Char} (h : ∀ c ∈ before, isBlank c = true) :
    isPrompt (String.ofList (before ++ '>' :: behind)) = true ↔ ∀ c ∈ behind, isBlank c = true := by
  rw [isPrompt_ofList, trimBlanks_prepend h]
  constructor
  · intro htrim
    obtain ⟨back, hback, hblank⟩ := exists_dropWhileEnd isBlank behind
    have hshell : trimBlanks ('>' :: behind) = '>' :: dropWhileEnd isBlank behind :=
      dropWhileEnd_cons_of_not rfl _
    rw [hshell] at htrim
    rw [(List.cons.inj htrim).2, List.nil_append] at hback
    exact hback ▸ hblank
  · exact fun hbehind => trimBlanks_append hbehind ['>']

theorem prompt_not_mem_of_blank {cs : List Char} (h : ∀ c ∈ cs, isBlank c = true) : '>' ∉ cs :=
  fun hmem => absurd (h '>' hmem) (by decide)

/-- A number of prompts as the shell prints them. -/
def shells (k : Nat) : List Char := (List.replicate k ['>', ' ']).flatten

theorem shells_succ (k : Nat) : shells (k + 1) = '>' :: ' ' :: shells k := rfl

theorem mem_shells {c : Char} : ∀ {k : Nat}, c ∈ shells k → c = '>' ∨ c = ' '
  | 0, h => absurd h List.not_mem_nil
  | k + 1, h => by
    rw [shells_succ, List.mem_cons, List.mem_cons] at h
    rcases h with h | h | h
    · exact .inl h
    · exact .inr h
    · exact mem_shells h

/-- A piece ends behind the prompt that follows `front`, with nothing but blanks between. -/
def Parted (pieces : List (List Char)) (front : List Char) : Prop :=
  ∃ e ∈ ends pieces, (front ++ ['>']) <+: e ∧ ∀ c ∈ e.drop (front ++ ['>']).length, isBlank c = true

instance (pieces : List (List Char)) (front : List Char) : Decidable (Parted pieces front) :=
  decidable_of_iff
    (∃ e ∈ ends pieces, (front ++ ['>']) <+: e ∧
      (e.drop (front ++ ['>']).length).all isBlank = true)
    (by simp only [List.all_eq_true, Parted])

theorem parted_iff {pieces : List (List Char)} {front : List Char} :
    Parted pieces front ↔
      ∃ blanks, (∀ c ∈ blanks, isBlank c = true) ∧ front ++ '>' :: blanks ∈ ends pieces := by
  constructor
  · rintro ⟨_, he, ⟨blanks, rfl⟩, hblanks⟩
    rw [List.drop_left] at hblanks
    exact ⟨blanks, hblanks, by simpa using he⟩
  · rintro ⟨blanks, hblanks, he⟩
    have heq : front ++ '>' :: blanks = front ++ ['>'] ++ blanks := by simp
    exact ⟨_, heq ▸ he, List.prefix_append _ _, by rwa [List.drop_left]⟩

/-- Nothing is left in front of prompt `k` when the prompts in front of it are off the line, which
starts with `lead`: no piece ends right behind the one before it, which would leave its blank. -/
def LeavesNothing (lead : List Char) (pieces : List (List Char)) : Nat → Prop
  | 0 => lead = []
  | k + 1 => lead ++ shells k ++ ['>'] ∉ ends pieces

instance (lead : List Char) (pieces : List (List Char)) :
    ∀ k, Decidable (LeavesNothing lead pieces k)
  | 0 => inferInstanceAs (Decidable (lead = []))
  | k + 1 => inferInstanceAs (Decidable (lead ++ shells k ++ ['>'] ∉ ends pieces))

/-- The pieces clear `k` prompts off their line, which starts with `lead`: all but the last one are
parted from what comes behind them, and the last one is parted, too, or nothing is left in front of
it. -/
def Cleared (lead : List Char) (pieces : List (List Char)) : Nat → Prop
  | 0 => True
  | k + 1 => (∀ i < k, Parted pieces (lead ++ shells i)) ∧
      (Parted pieces (lead ++ shells k) ∨ LeavesNothing lead pieces k)

instance (lead : List Char) (pieces : List (List Char)) : ∀ k, Decidable (Cleared lead pieces k)
  | 0 => inferInstanceAs (Decidable True)
  | k + 1 => inferInstanceAs (Decidable ((∀ i < k, Parted pieces (lead ++ shells i)) ∧ _))

/-- One prompt is off the line whatever the pieces. -/
theorem cleared_of_le_one {k : Nat} (h : k ≤ 1) (pieces : List (List Char)) :
    Cleared [] pieces k := by
  match k with
  | 0 => trivial
  | 1 => exact ⟨fun i hi => absurd hi (Nat.not_lt_zero i), .inr rfl⟩

/-- With the first prompt handed out, the other ones are cleared by the pieces behind it. What is
left of the first prompt is its blank, if it was handed out in front of it. -/
theorem HandsOut.cleared_iff {pieces front back : List (List Char)} {lead lead' behind : List Char}
    {k : Nat} (h : HandsOut [] pieces front back) (hlead : ∀ c ∈ lead, isBlank c = true)
    (hfront : front.flatten = lead ++ '>' :: behind) (hbehind : behind ++ lead' = [' ']) :
    Cleared lead pieces (k + 2) ↔ Cleared lead' back (k + 1) := by
  have hblanks : ∀ c ∈ behind, isBlank c = true := fun c hc =>
    isBlank_of_mem_space c (hbehind ▸ List.mem_append_left lead' hc)
  have hmem : front.flatten ∈ ends pieces := mem_ends.2 ⟨front, back, h.pieces_eq, rfl⟩
  have hshift : ∀ i more,
      lead ++ shells (i + 1) ++ more = front.flatten ++ (lead' ++ shells i ++ more) := by
    intro i more
    calc lead ++ shells (i + 1) ++ more
        = lead ++ '>' :: ([' '] ++ shells i ++ more) := by simp [shells_succ]
      _ = lead ++ '>' :: (behind ++ lead' ++ shells i ++ more) := by rw [hbehind]
      _ = front.flatten ++ (lead' ++ shells i ++ more) := by simp [hfront]
  have hends : ∀ i more, lead ++ shells (i + 1) ++ more ∈ ends pieces ↔
      lead' ++ shells i ++ more ∈ ends back := by
    intro i more
    rw [hshift, h.pieces_eq, append_mem_ends]
  have hparted : ∀ i, Parted pieces (lead ++ shells (i + 1)) ↔ Parted back (lead' ++ shells i) := by
    intro i
    simp only [parted_iff, hends]
  have hnow : Parted pieces (lead ++ shells 0) := by
    rw [show lead ++ shells 0 = lead from List.append_nil lead]
    exact parted_iff.2 ⟨behind, hblanks, hfront ▸ hmem⟩
  have hleaves : LeavesNothing lead pieces (k + 1) ↔ LeavesNothing lead' back k := by
    cases k with
    | succ k => exact not_congr (hends k ['>'])
    | zero =>
      rw [LeavesNothing, LeavesNothing, show lead ++ shells 0 = lead from List.append_nil lead]
      rcases List.append_eq_singleton_iff.1 hbehind with ⟨rfl, rfl⟩ | ⟨rfl, rfl⟩
      · exact iff_of_false (not_not_intro (hfront ▸ hmem)) (List.cons_ne_nil ' ' [])
      · refine iff_of_true (fun he => ?_) rfl
        have hle := (h.first _ he ((isPrompt_blanks_iff hlead).2 nofun)).length_le
        rw [hfront] at hle
        simp at hle
  rw [Cleared, Cleared, Nat.forall_lt_succ_left, hparted, hleaves, and_iff_right hnow]
  simp only [hparted]

/-- Between two prompts there is one blank, which goes with the first of them or is left in front of
the second. -/
theorem exists_lead {blanks later more : List Char} (hblanks : ∀ c ∈ blanks, isBlank c = true)
    (h : blanks ++ later = ' ' :: '>' :: more) :
    ∃ lead, (lead = [] ∨ lead = [' ']) ∧ blanks ++ lead = [' '] ∧ later = lead ++ '>' :: more := by
  cases blanks with
  | nil => exact ⟨[' '], .inr rfl, rfl, h⟩
  | cons c blanks =>
    obtain ⟨rfl, htail⟩ := List.cons.inj h
    cases blanks with
    | nil => exact ⟨[], .inl rfl, rfl, htail⟩
    | cons d blanks =>
      obtain ⟨rfl, -⟩ := List.cons.inj htail
      exact absurd (List.mem_cons_of_mem ' ' List.mem_cons_self) (prompt_not_mem_of_blank hblanks)

section Record

variable {record : Record} {r : List Char} (hrecord : classifyLine (String.ofList r) = some record)
include hrecord

theorem not_opensWithPrompt_of_record : ¬ OpensWithPrompt r := fun h =>
  Option.some_ne_none record (hrecord.symm.trans (classifyLine_of_opensWithPrompt h))

theorem not_blank_of_record : ¬ ∀ c ∈ r, isBlank c = true := fun h =>
  Option.some_ne_none record (hrecord.symm.trans (classifyLine_of_blank (List.all_eq_true.2 h)))

/-- Blanks in front of a record are part of its line. -/
theorem exists_record_behind {blanks later : List Char} (hblanks : ∀ c ∈ blanks, isBlank c = true)
    (h : blanks ++ later = r ++ ['\n']) :
    ∃ r', r = blanks ++ r' ∧ later = r' ++ ['\n'] ∧
      classifyLine (String.ofList r') = some record := by
  rcases List.append_eq_append_iff.1 h with ⟨r', rfl, rfl⟩ | ⟨more, rfl, -⟩
  · refine ⟨r', rfl, rfl, ?_⟩
    rw [← hrecord]
    exact classifyLine_congr (trimBlanks_prepend hblanks r').symm
  · exact absurd (fun c hc => hblanks c (List.mem_append_left more hc))
      (not_blank_of_record hrecord)

/-- A record with no prompt in front is found. -/
theorem found_record (hfeed : '\n' ∉ r) (hclean : replacement ∉ r) {pieces : List (List Char)}
    (h : pieces.flatten = r ++ ['\n']) : found [] pieces = .ofRecord record := by
  have hopens := not_opensWithPrompt_of_record hrecord
  have hline : ¬ isPrompt (String.ofList r) = true := by
    intro hprompt
    obtain ⟨before, behind, rfl, hbefore, -⟩ := exists_of_isPrompt hprompt
    exact hopens (opensWithPrompt_of_blanks hbefore behind)
  rcases found_line h List.not_mem_nil hfeed hclean (by decide) hline
    with ⟨-, hread⟩ | ⟨front, back, hout, -⟩
  · have hbare : bare r = r := bare_of_ne fun out hout => hopens (hout ▸ rfl)
    rw [hread, hbare]
    exact classifyLines_of_some hrecord
  · -- a prompt that is handed out would be at the beginning of the record
    obtain ⟨before, behind, hfront, hbefore, -⟩ := exists_of_isPrompt hout.prompt
    rw [hout.pieces_eq, List.flatten_append, ← List.nil_append front.flatten, hfront,
      List.append_assoc] at h
    obtain ⟨r', -, hr', hrecord'⟩ := exists_record_behind hrecord hbefore h
    refine absurd ?_ (not_opensWithPrompt_of_record hrecord')
    cases r' with
    | nil => exact absurd (List.cons.inj hr').1 (by decide)
    | cons c r' =>
      obtain ⟨rfl, -⟩ := List.cons.inj hr'
      rfl

section Lead

variable {lead : List Char} (hlead : lead = [] ∨ lead = [' ']) {k : Nat} {pieces : List (List Char)}
include hlead

omit hrecord in
theorem isBlank_of_mem_lead : ∀ c ∈ lead, isBlank c = true := by
  rcases hlead with rfl | rfl
  · exact nofun
  · exact isBlank_of_mem_space

omit hrecord in
theorem not_mem_behind_shells {c : Char} (hprompt : c ≠ '>') (hspace : c ≠ ' ') (hr : c ∉ r) :
    c ∉ lead ++ shells k ++ r := by
  rw [List.mem_append, List.mem_append, not_or, not_or]
  refine ⟨⟨?_, fun h => (mem_shells h).elim hprompt hspace⟩, hr⟩
  rcases hlead with rfl | rfl
  · exact List.not_mem_nil
  · exact mt List.mem_singleton.1 hspace

/-- A line on which all prompts are left when it is complete shows its record if there is one
prompt, and in front. -/
theorem found_complete (hnone : ∀ e ∈ ends pieces, ¬ isPrompt (String.ofList e) = true) :
    classifyLines [String.ofList (bare (lead ++ shells (k + 1) ++ r))] =
      if Cleared lead pieces (k + 1) then .ofRecord record else .empty := by
  have hblanks := isBlank_of_mem_lead hlead
  have hparted : ¬ Parted pieces (lead ++ shells 0) := by
    rw [show lead ++ shells 0 = lead from List.append_nil lead, parted_iff]
    rintro ⟨blanks, hbehind, he⟩
    exact hnone _ he ((isPrompt_blanks_iff hblanks).2 hbehind)
  have hopens : ∀ out, OpensWithPrompt out → classifyLines [String.ofList out] = .empty :=
    fun out h =>
      classifyLines_of_none (classifyLine_of_opensWithPrompt h)
  cases k with
  | succ k =>
    have hcleared : ¬ Cleared lead pieces (k + 2) := fun h => hparted (h.1 0 k.succ_pos)
    rw [if_neg hcleared]
    rcases hlead with rfl | rfl
    · exact hopens (shells (k + 1) ++ r) rfl
    · exact hopens (' ' :: shells (k + 2) ++ r) rfl
  | zero =>
    rcases hlead with rfl | rfl
    · rw [if_pos (cleared_of_le_one le_rfl pieces)]
      exact classifyLines_of_some hrecord
    · have hcleared : ¬ Cleared [' '] pieces 1 := by
        rintro ⟨-, h | h⟩
        · exact hparted h
        · exact List.cons_ne_nil ' ' [] h
      rw [if_neg hcleared]
      exact hopens (' ' :: shells 1 ++ r) rfl

/-- What is found behind a number of prompts, with a blank in front of them or none. -/
theorem found_shells (hfeed : '\n' ∉ r) (hclean : replacement ∉ r)
    (h : pieces.flatten = lead ++ shells k ++ r ++ ['\n']) :
    found [] pieces = if Cleared lead pieces k then .ofRecord record else .empty := by
  have hfeed' := not_mem_behind_shells hlead (k := k) (by decide) (by decide) hfeed
  have hclean' := not_mem_behind_shells hlead (k := k) (by decide) (by decide) hclean
  have hblanks := isBlank_of_mem_lead hlead
  induction k generalizing lead pieces with
  | zero =>
    rw [show lead ++ shells 0 = lead from List.append_nil lead] at h hfeed' hclean'
    have hrecord' : classifyLine (String.ofList (lead ++ r)) = some record := by
      rw [← hrecord]
      exact classifyLine_congr (trimBlanks_prepend hblanks r)
    exact (found_record hrecord' hfeed' hclean' h).trans (if_pos trivial).symm
  | succ k ih =>
    have hline : ¬ isPrompt (String.ofList (lead ++ shells (k + 1) ++ r)) = true := by
      rw [shells_succ, List.append_assoc, List.cons_append, isPrompt_blanks_iff hblanks]
      intro hall
      exact not_blank_of_record hrecord fun c hc => hall c (List.mem_append_right _ hc)
    rcases found_line h List.not_mem_nil hfeed' hclean' (by decide) hline with
      ⟨hnone, hread⟩ | ⟨front, back, hout, hread⟩
    · rw [hread]
      exact found_complete hrecord hlead hnone
    · obtain ⟨before, behind, hfront, hbefore, hbehind⟩ := exists_of_isPrompt hout.prompt
      rw [List.nil_append] at hfront
      have htext : before ++ '>' :: (behind ++ back.flatten) =
          lead ++ '>' :: (' ' :: shells k ++ r ++ ['\n']) := by
        rw [hout.pieces_eq, List.flatten_append, hfront, shells_succ] at h
        simpa using h
      obtain ⟨rfl, hlater⟩ :=
        append_sep_inj (prompt_not_mem_of_blank hbefore) (prompt_not_mem_of_blank hblanks) htext
      rw [hread]
      cases k with
      | zero =>
        have hparted : Parted pieces (before ++ shells 0) := by
          rw [show before ++ shells 0 = before from List.append_nil before]
          exact parted_iff.2 ⟨behind, hbehind,
            hfront ▸ mem_ends.2 ⟨front, back, hout.pieces_eq, rfl⟩⟩
        have hrecord' : classifyLine (String.ofList (' ' :: r)) = some record := by
          rw [← hrecord]
          exact classifyLine_congr (trimBlanks_prepend isBlank_of_mem_space r)
        obtain ⟨r', hr, hback, hrecord'⟩ :=
          exists_record_behind (r := ' ' :: r) hrecord' hbehind hlater
        have hmem : ∀ c, c ∈ r' → c ∈ ' ' :: r := fun c hc => hr ▸ List.mem_append_right behind hc
        rw [if_pos ⟨fun i hi => absurd hi (Nat.not_lt_zero i), .inl hparted⟩]
        exact found_record hrecord' (fun h => hfeed (by simpa using hmem _ h))
          (fun h => hclean (by simpa [replacement] using hmem _ h)) hback
      | succ k =>
        have hlater : behind ++ back.flatten = ' ' :: '>' :: (' ' :: shells k ++ r ++ ['\n']) :=
          hlater
        obtain ⟨lead', hlead', hspace, hback⟩ := exists_lead hbehind hlater
        simp only [hout.cleared_iff hblanks hfront hspace]
        refine ih hlead' (by simpa [shells_succ] using hback) ?_ ?_ (isBlank_of_mem_lead hlead')
        · exact not_mem_behind_shells hlead' (by decide) (by decide) hfeed
        · exact not_mem_behind_shells hlead' (by decide) (by decide) hclean

end Lead

end Record

/-- **A record behind prompts.** Whatever the pieces in which the prompts, the record and its line
feed come, nothing else is found than the record. It is found if the pieces clear the prompts off
the line and lost if they do not, and so never lost behind one prompt. -/
theorem found_behind_prompts {record : Record} {r : String} (hrecord : classifyLine r = some record)
    (hfeed : '\n' ∉ r.toList) (hclean : replacement ∉ r.toList) {k : Nat} {pieces : List String}
    (hpieces : String.join pieces = String.join (List.replicate k "> ") ++ r ++ "\n") :
    let records := classifyLines (pushAll empty (pieces.map encode)).1
    records = (if Cleared [] (pieces.map String.toList) k then .ofRecord record else .empty) ∧
      (k ≤ 1 → records = .ofRecord record) := by
  intro records
  have hprompts : (String.join (List.replicate k "> ")).toList = shells k := by
    rw [String.toList_join, List.flatMap_def, List.map_replicate]
    rfl
  have hchars : (pieces.map String.toList).flatten = [] ++ shells k ++ r.toList ++ ['\n'] := by
    rw [← List.flatMap_def, ← String.toList_join, hpieces, String.toList_append,
      String.toList_append, hprompts]
    rfl
  have hfound : records = found [] (pieces.map String.toList) := by
    rw [found, List.map_map]
    rfl
  have hrecord' : classifyLine (String.ofList r.toList) = some record := by
    rw [String.ofList_toList]
    exact hrecord
  have hall := found_shells hrecord' (.inl rfl) hfeed hclean hchars
  exact ⟨hfound.trans hall, fun hk => hfound.trans (hall.trans (if_pos (cleared_of_le_one hk _)))⟩

/-- Behind two prompts, a record is lost if all comes in one piece. It is found if the first prompt
comes in a piece of its own, and lost again if this piece is cut in front of the blank. -/
theorem found_behind_two_prompts :
    let record : Record := .epoch ⟨none, 7, []⟩
    let records pieces := classifyLines (pushAll empty (pieces.map encode)).1
    records ["> > \x7b\"epoch\":7,\"pets\":[]\x7d\n"] = .empty ∧
      records ["> ", "> \x7b\"epoch\":7,\"pets\":[]\x7d\n"] = .ofRecord record ∧
      records [">", " > \x7b\"epoch\":7,\"pets\":[]\x7d\n"] = .empty := by
  intro record records
  have hrecord : classifyLine "\x7b\"epoch\":7,\"pets\":[]\x7d" = some record := by decide +kernel
  have hfound {pieces : List String}
      (h : String.join pieces =
        String.join (List.replicate 2 "> ") ++ "\x7b\"epoch\":7,\"pets\":[]\x7d" ++ "\n") :=
    (found_behind_prompts hrecord (by decide) (by decide) h).1
  refine ⟨(hfound ?_).trans (if_neg ?_), (hfound ?_).trans (if_pos ?_),
    (hfound ?_).trans (if_neg ?_)⟩
  all_goals decide +kernel

end Framer

end ProximityLab
