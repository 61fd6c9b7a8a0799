import ProximityLab.Proofs.Terminal.Framing
import ProximityLab.Proofs.Text.Decoding

/-!
# Output cut into chunks

A prompt is handed out as soon as a chunk ends with it, so the lines of an output depend on how it
is cut. What a session makes of them does not, as long as the lines of the output are
`Framer.Regular`: it sees the lines that are not blank, without the blanks around them
(`Framer.visible`).

- **One line** (`visible_linesOfBytes`, `Regular.of_prompt`): a regular line shows the same in one
  piece and with its prompt handed out in front.
- **All chunks** (`visible_run`): what is seen is what each line of the text shows, so no two ways
  of cutting it differ (`run_recut`).
-/

namespace ProximityLab.Framer

open Text

/-! ## What is seen -/

/-- The lines that are not blank, without the blanks around them. -/
def visible (lines : List String) : List String := (lines.map trim).filter (· ≠ "")

/-- The first character that is not blank is a prompt. -/
def OpensWithPrompt (cs : List Char) : Prop := (cs.dropWhile isBlank).head? = some '>'

instance (cs : List Char) : Decidable (OpensWithPrompt cs) := inferInstanceAs (Decidable (_ = _))

/-- A line of output, the bare prompt, or output behind the prompt. -/
inductive Regular : List Char → Prop where
  | output {cs : List Char} (h : ¬ OpensWithPrompt cs) : Regular cs
  | bare {blanks : List Char} (h : ∀ c ∈ blanks, isBlank c = true) : Regular ('>' :: blanks)
  | shell {out : List Char} (h : ¬ OpensWithPrompt out) : Regular ('>' :: ' ' :: out)

/-- What a line shows: the prompt that it starts with, and its output. -/
def seen : List Char → List String
  | '>' :: out => prompt :: visible [String.ofList out]
  | line => visible [String.ofList line]

@[simp] theorem visible_append (a b : List String) : visible (a ++ b) = visible a ++ visible b := by
  simp [visible]

theorem visible_cons (line : String) (lines : List String) :
    visible (line :: lines) = visible [line] ++ visible lines := visible_append [line] lines

@[simp] theorem visible_prompt : visible [prompt] = [prompt] := by decide

theorem visible_congr {a b : List Char} (h : trimBlanks a = trimBlanks b) :
    visible [String.ofList a] = visible [String.ofList b] := by
  simp [visible, trim, h]

theorem visible_of_blank {cs : List Char} (h : ∀ c ∈ cs, isBlank c = true) :
    visible [String.ofList cs] = [] :=
  visible_congr (b := []) ((trimBlanks_eq_nil_iff cs).2 (List.all_eq_true.2 h))

theorem isBlank_of_mem_space : ∀ c ∈ [' '], isBlank c = true := by
  intro c hc
  obtain rfl := List.mem_singleton.1 hc
  rfl

theorem not_opensWithPrompt_of_blank {cs : List Char} (h : ∀ c ∈ cs, isBlank c = true) :
    ¬ OpensWithPrompt cs := by
  rw [OpensWithPrompt, (dropWhile_eq_nil_iff isBlank cs).2 (List.all_eq_true.2 h)]
  nofun

/-- Blanks in front do not count. -/
theorem opensWithPrompt_prepend {front : List Char} (h : ∀ c ∈ front, isBlank c = true)
    (cs : List Char) :
    OpensWithPrompt (front ++ cs) ↔ OpensWithPrompt cs := by
  rw [OpensWithPrompt, dropWhile_append_of_all h, OpensWithPrompt]

theorem seen_of_not_opensWithPrompt {cs : List Char} (h : ¬ OpensWithPrompt cs) :
    seen cs = visible [String.ofList cs] := by
  unfold seen
  split
  · exact absurd rfl h
  · rfl

/-! ## One line -/

/-- Behind the shell's prompt, output is a line of its own. -/
theorem visible_shell (out returns : List Char) (h : ∀ c ∈ returns, isBlank c = true) :
    visible (if out.all isBlank then [String.ofList ('>' :: ' ' :: out)]
      else [prompt, String.ofList out]) =
      prompt :: visible [String.ofList (' ' :: (out ++ returns))] := by
  have htrim : trimBlanks (' ' :: (out ++ returns)) = trimBlanks out := by
    rw [show ' ' :: (out ++ returns) = [' '] ++ out ++ returns from rfl, trimBlanks_append h,
      trimBlanks_prepend isBlank_of_mem_space]
  rw [visible_congr htrim]
  split
  · rename_i hout
    have hblank : ∀ c ∈ ' ' :: out, isBlank c = true := by
      simpa using ⟨rfl, List.all_eq_true.1 hout⟩
    have hprompt : trimBlanks (['>'] ++ ' ' :: out) = trimBlanks ['>'] :=
      trimBlanks_append hblank ['>']
    rw [visible_of_blank (List.all_eq_true.1 hout)]
    exact visible_congr hprompt
  · exact visible_cons prompt [String.ofList out]

/-- A regular line shows the same when it is framed in one piece. -/
theorem visible_linesOfBytes {cs : List Char} (hcs : replacement ∉ cs) (h : Regular cs) :
    visible (linesOfBytes (cs.flatMap encodeChar)) = seen cs := by
  obtain ⟨returns, hline, hreturns⟩ := exists_dropWhileEnd (· == '\r') cs
  have hblank := isBlank_of_returns fun c hc => eq_of_beq (hreturns c hc)
  have hvisible : visible [String.ofList (dropWhileEnd (· == '\r') cs)] =
      visible [String.ofList cs] := by
    conv => rhs; rw [hline]
    exact (visible_congr (trimBlanks_append hblank _)).symm
  rw [linesOfBytes, lenientChars_flatMap hcs]
  split
  · rename_i out hout
    rw [hout] at hline
    rw [visible_shell out returns hblank, hline]
    rfl
  · rename_i hshell
    rw [hvisible]
    cases h with
    | output hopens => exact (seen_of_not_opensWithPrompt hopens).symm
    | @bare blanks hblanks =>
      have hprompt : trimBlanks (['>'] ++ blanks) = trimBlanks ['>'] :=
        trimBlanks_append hblanks ['>']
      rw [seen, visible_of_blank hblanks]
      exact visible_congr hprompt
    | shell =>
      exact absurd (by rw [dropWhileEnd_cons_of_not rfl, dropWhileEnd_cons_of_not rfl]) (hshell _)

/-- If a regular line opens with a prompt, it starts with it, and what is behind does not open with
another. -/
theorem Regular.starts {before behind : List Char} (h : Regular (before ++ '>' :: behind))
    (hbefore : ∀ c ∈ before, isBlank c = true) : before = [] ∧ ¬ OpensWithPrompt behind := by
  have hstart : ∀ out, before ++ '>' :: behind = '>' :: out → before = [] ∧ behind = out := by
    intro out hout
    cases before with
    | nil => exact ⟨rfl, (List.cons.inj hout).2⟩
    | cons c before =>
      obtain ⟨rfl, -⟩ := List.cons.inj hout
      exact absurd (hbefore '>' List.mem_cons_self) (by decide)
  generalize hline : before ++ '>' :: behind = line at h hstart
  cases h with
  | output hopens =>
    rw [← hline, opensWithPrompt_prepend hbefore] at hopens
    exact absurd rfl hopens
  | @bare blanks hblanks =>
    obtain ⟨hnil, rfl⟩ := hstart blanks rfl
    exact ⟨hnil, not_opensWithPrompt_of_blank hblanks⟩
  | @shell out hopens =>
    obtain ⟨hnil, rfl⟩ := hstart (' ' :: out) rfl
    exact ⟨hnil, fun h => hopens ((opensWithPrompt_prepend isBlank_of_mem_space out).1 h)⟩

/-- What comes behind a prompt that was handed out is output, and it shows the rest of its line. -/
theorem Regular.of_prompt {front rest : List Char} (hprompt : isPrompt (String.ofList front) = true)
    (h : Regular (front ++ rest)) : Regular rest ∧ seen (front ++ rest) = prompt :: seen rest := by
  obtain ⟨before, behind, hfront, hbefore, hbehind⟩ := exists_of_isPrompt hprompt
  have hline : front ++ rest = before ++ '>' :: (behind ++ rest) := by simp [hfront]
  obtain ⟨rfl, hopens⟩ := (hline ▸ h).starts hbefore
  rw [opensWithPrompt_prepend hbehind] at hopens
  refine ⟨.output hopens, ?_⟩
  rw [hline, seen_of_not_opensWithPrompt hopens, List.nil_append, seen,
    visible_congr (trimBlanks_prepend hbehind rest)]

/-! ## All chunks -/

/-- Closed lines that are regular show what each of them shows. -/
theorem visible_closed {lines : List (List Char)} (hclean : ∀ line ∈ lines, replacement ∉ line)
    (h : ∀ line ∈ lines, Regular line) :
    visible ((lines.map (·.flatMap encodeChar)).flatMap linesOfBytes) = lines.flatMap seen := by
  induction lines with
  | nil => rfl
  | cons line lines ih =>
    obtain ⟨hc, hclean⟩ := List.forall_mem_cons.1 hclean
    obtain ⟨hr, h⟩ := List.forall_mem_cons.1 h
    rw [List.map_cons, List.flatMap_cons, visible_append, visible_linesOfBytes hc hr, ih hclean h,
      List.flatMap_cons]

/-- A piece of a text closes the lines that its line feeds end. -/
theorem push_encode {p piece : List Char} (hclean : replacement ∉ p ++ piece) : ∃ closed rest,
    splitOn '\n' (p ++ piece) = closed ++ [rest] ∧ '\n' ∉ rest ∧ rest <:+ p ++ piece ∧
      (∀ line ∈ closed, replacement ∉ line) ∧
      push ⟨p.flatMap encodeChar⟩ (piece.flatMap encodeChar) =
        if isPrompt (String.ofList rest) then
          ((closed.map (·.flatMap encodeChar)).flatMap linesOfBytes ++ [prompt], empty)
        else ((closed.map (·.flatMap encodeChar)).flatMap linesOfBytes,
          ⟨rest.flatMap encodeChar⟩) := by
  obtain ⟨closed, rest, hsplit, hcs, -, hrest⟩ := exists_pieces '\n' (p ++ piece)
  have hsuffix : rest <:+ p ++ piece := hcs ▸ List.suffix_append _ _
  refine ⟨closed, rest, hsplit, hrest, hsuffix, fun line hline hmem => hclean ?_, ?_⟩
  · rw [hcs]
    exact List.mem_append_left _ (List.mem_flatMap.2 ⟨line, hline, List.mem_append_left _ hmem⟩)
  · obtain ⟨closed', hsplit', -, hpush⟩ :=
      push_pieces ⟨p.flatMap encodeChar⟩ (piece.flatMap encodeChar)
    rw [← List.flatMap_append, splitOn_encode (c := '\n') (b := 10) rfl, hsplit, List.map_append]
      at hsplit'
    obtain ⟨rfl, hunfinished⟩ := List.append_inj' hsplit' rfl
    rw [hpush, prompts, ← List.singleton_inj.1 hunfinished, decodeLenient,
      lenientChars_flatMap fun h => hclean (hsuffix.mem h)]

/-- With a part of a line pending, the rest of the text shows what each of its lines shows. -/
theorem visible_run_of_pending {p : List Char} {pieces : List (List Char)} (hp : '\n' ∉ p)
    (hclean : replacement ∉ p ++ pieces.flatten)
    (hregular : ∀ line ∈ splitOn '\n' (p ++ pieces.flatten), Regular line) :
    visible (run ⟨p.flatMap encodeChar⟩ (pieces.map (·.flatMap encodeChar))) =
      (splitOn '\n' (p ++ pieces.flatten)).flatMap seen := by
  induction pieces generalizing p with
  | nil =>
    rw [List.flatten_nil, List.append_nil] at hclean hregular ⊢
    rw [splitOn_of_not_mem hp] at hregular ⊢
    have hline := visible_linesOfBytes hclean (hregular p List.mem_cons_self)
    rw [List.flatMap_singleton, ← hline, List.map_nil, run, finish]
    split
    · rename_i hempty
      rw [show p.flatMap encodeChar = [] from List.isEmpty_iff.1 hempty]
      decide
    · rfl
  | cons piece pieces ih =>
    rw [List.flatten_cons, ← List.append_assoc] at hclean hregular ⊢
    obtain ⟨hnow, hlater⟩ := not_or.1 (mt List.mem_append.2 hclean)
    obtain ⟨closed, rest, hsplit, hrest, hsuffix, hclosed, hpush⟩ := push_encode hnow
    rw [splitOn_append hsplit] at hregular ⊢
    have hshown := visible_closed hclosed fun line h => hregular line (List.mem_append_left _ h)
    have hregular := fun line h => hregular line (List.mem_append_right _ h)
    rw [List.map_cons, run, hpush, List.flatMap_append]
    by_cases hprompt : isPrompt (String.ofList rest) = true
    · obtain ⟨line, lines, hpieces, hline⟩ := splitOn_prepend hrest pieces.flatten
      rw [hline] at hregular ⊢
      obtain ⟨hfirst, hregular⟩ := List.forall_mem_cons.1 hregular
      obtain ⟨hfirst, hseen⟩ := hfirst.of_prompt hprompt
      have hlines := ih (p := []) (by simp) (by simpa using hlater)
        (by rw [List.nil_append, hpieces]; exact List.forall_mem_cons.2 ⟨hfirst, hregular⟩)
      rw [List.nil_append, hpieces] at hlines
      rw [if_pos hprompt, List.flatMap_cons, hseen]
      calc visible ((closed.map (·.flatMap encodeChar)).flatMap linesOfBytes ++ [prompt] ++
            run empty (pieces.map (·.flatMap encodeChar)))
          = closed.flatMap seen ++ [prompt] ++
          visible (run empty (pieces.map (·.flatMap encodeChar))) := by
            rw [visible_append, visible_append, hshown, visible_prompt]
        _ = closed.flatMap seen ++ (prompt :: seen line ++ lines.flatMap seen) := by
            rw [show visible (run empty (pieces.map (·.flatMap encodeChar))) =
              (line :: lines).flatMap seen from hlines]
            simp
    · have hclean : replacement ∉ rest ++ pieces.flatten := by
        intro h
        exact (List.mem_append.1 h).elim (fun h => hnow (hsuffix.mem h)) hlater
      rw [if_neg hprompt, ← ih hrest hclean hregular, ← hshown, ← visible_append]

/-- What is seen of a text whose lines are regular, whatever the chunks. -/
theorem visible_run {text : String} (htext : replacement ∉ text.toList)
    (hregular : ∀ line ∈ splitOn '\n' text.toList, Regular line) {pieces : List String}
    (hpieces : String.join pieces = text) :
    visible (run empty (pieces.map encode)) = (splitOn '\n' text.toList).flatMap seen := by
  have hchars : text.toList = [] ++ (pieces.map String.toList).flatten := by
    rw [← hpieces, String.toList_join, List.nil_append, List.flatMap_def]
  rw [hchars] at htext hregular ⊢
  rw [← visible_run_of_pending List.not_mem_nil htext hregular, List.map_map]
  rfl

/-- A text whose lines are regular shows the same prompts and the same output between them in
whichever pieces it is framed. -/
theorem run_recut {text : String} (htext : replacement ∉ text.toList)
    (hregular : ∀ line ∈ splitOn '\n' text.toList, Regular line) {pieces pieces' : List String}
    (hpieces : String.join pieces = text) (hpieces' : String.join pieces' = text) :
    visible (run empty (pieces.map encode)) = visible (run empty (pieces'.map encode)) :=
  (visible_run htext hregular hpieces).trans (visible_run htext hregular hpieces').symm

/-- The lines differ where a chunk ends with a prompt, what is seen of them does not. -/
theorem run_recut_at_prompts :
    let pieces := ["> pep", "per\r", "\n>", " ok > é\r\n \r\n>", " "]
    let whole := ["> pepper\r\n> ok > é\r\n \r\n> "]
    run empty (pieces.map encode) ≠ run empty (whole.map encode) ∧
      visible (run empty (pieces.map encode)) = visible (run empty (whole.map encode)) ∧
      visible (run empty (pieces.map encode)) = [">", "pepper", ">", "ok > é", ">"] := by
  intro pieces whole
  have hlines : splitOn '\n' "> pepper\r\n> ok > é\r\n \r\n> ".toList =
      ["> pepper\r".toList, "> ok > é\r".toList, " \r".toList, "> ".toList] := by decide +kernel
  have hregular : ∀ line ∈ splitOn '\n' "> pepper\r\n> ok > é\r\n \r\n> ".toList, Regular line := by
    rw [hlines]
    simp only [List.forall_mem_cons]
    exact ⟨.shell (by decide), .shell (by decide), .output (by decide), .bare isBlank_of_mem_space,
      nofun⟩
  exact ⟨by decide +kernel,
    run_recut (by decide +kernel) hregular (by decide +kernel) (by decide +kernel),
    by decide +kernel⟩

end ProximityLab.Framer
