import ProximityLab.Proofs.Terminal.Framing
import ProximityLab.Proofs.Text.Decoding
import ProximityLab.Transcript

/-!
# What is found in the output of a terminal

The records of an output are found live, on the lines that a framer hands out, or later in its log,
on the lines of the text (`classify`). Both split the output at its line feeds
(`splitOn_lenientChars`) and neither minds blanks around a line (`classifyLine_congr`). They differ
in the shell's prompt:

- **Live** (`classifyLines_run`): the framer takes it off the line, and the output behind it is
  read.
- **In the log** (`classify_eq_bare`): a line that starts with it is no record.

So what is found later is found live, and all of it that stands behind no prompt
(`classify_eq_iff`).
-/

namespace ProximityLab

open Text

/-! ## One line -/

/-- Blanks around a line do not count. -/
theorem classifyLine_congr {a b : List Char} (h : trimBlanks a = trimBlanks b) :
    classifyLine (String.ofList a) = classifyLine (String.ofList b) := by
  simp only [classifyLine, trim, String.toList_ofList, h]

theorem classifyLine_of_blank {cs : List Char} (h : cs.all isBlank = true) :
    classifyLine (String.ofList cs) = none := by
  rw [classifyLine_congr (b := []) ((trimBlanks_eq_nil_iff cs).2 h)]
  rfl

/-- No document starts with a prompt. -/
theorem read?_prompt (cs : List Char) : Json.read? (String.ofList ('>' :: cs)) = none := by
  have hnumber : Json.readNumeral? ('>' :: cs) = none := rfl
  have hvalue : ∀ fuel, Json.readValue? fuel ('>' :: cs) = none := by
    intro fuel
    cases fuel with
    | zero => rfl
    | succ fuel =>
      have hskip : Json.skipSpace ('>' :: cs) = '>' :: cs := rfl
      rw [Json.readValue?, hskip]
      simp [hnumber, Json.quote, Json.openBrace]
  rw [Json.read?, String.toList_ofList, Json.readChars?, hvalue]

/-- A line that starts with a prompt is no record. -/
theorem classifyLine_of_prompt (cs : List Char) :
    classifyLine (String.ofList ('>' :: cs)) = none := by
  have htrim : trimBlanks ('>' :: cs) = '>' :: dropWhileEnd isBlank cs :=
    dropWhileEnd_cons_of_not rfl cs
  have hsample : Sample.read? (String.ofList ('>' :: dropWhileEnd isBlank cs)) = none := by
    rw [Sample.read?, read?_prompt]
    rfl
  have hsummary : Summary.read? (String.ofList ('>' :: dropWhileEnd isBlank cs)) = none := by
    rw [Summary.read?, read?_prompt]
    rfl
  rw [classifyLine, trim, String.toList_ofList, htrim, hsample, hsummary]
  exact ite_self none

theorem classifyLines_cons (line : String) (lines : List String) :
    classifyLines (line :: lines) = classifyLines [line] ++ classifyLines lines :=
      classifyLines_append [line] lines

theorem classifyLines_of_none {line : String} (h : classifyLine line = none) :
    classifyLines [line] = .empty := by
  rw [classifyLines, h]
  rfl

theorem classifyLines_congr {line line' : String} (h : classifyLine line = classifyLine line') :
    classifyLines [line] = classifyLines [line'] := by
  simp only [classifyLines, h]

/-! ## Prompts -/

/-- The characters without the shell's prompt in front. -/
def bare : List Char → List Char
  | '>' :: ' ' :: out => out
  | line => line

/-- A line without the shell's prompt in front. -/
def withoutPrompt (line : String) : String := String.ofList (bare line.toList)

theorem bare_of_ne {cs : List Char} (h : ∀ out, cs ≠ '>' :: ' ' :: out) : bare cs = cs := by
  unfold bare
  split
  · exact absurd rfl (h _)
  · rfl

/-- Carriage returns at the end make no difference to the prompt. -/
theorem bare_append_returns (cs : List Char) {returns : List Char} (h : ∀ c ∈ returns, c = '\r') :
    bare (cs ++ returns) = bare cs ++ returns := by
  by_cases hcs : ∃ out, cs = '>' :: ' ' :: out
  · obtain ⟨out, rfl⟩ := hcs
    rfl
  · rw [not_exists] at hcs
    rw [bare_of_ne hcs]
    refine bare_of_ne fun out hout => ?_
    cases cs with
    | nil => exact absurd (h '>' (by simp [show returns = _ from hout])) (by decide)
    | cons d cs =>
      obtain ⟨rfl, hcs'⟩ := List.cons.inj hout
      cases cs with
      | nil => exact absurd (h ' ' (by simp [show returns = _ from hcs'])) (by decide)
      | cons e cs => exact hcs cs (by rw [(List.cons.inj hcs').1])

/-- Nor do they to the record behind it. -/
theorem classifyLine_bare_append (cs : List Char) {returns : List Char}
    (h : ∀ c ∈ returns, c = '\r') :
    classifyLine (String.ofList (bare (cs ++ returns))) =
      classifyLine (String.ofList (bare cs)) := by
  rw [bare_append_returns cs h]
  exact classifyLine_congr (trimBlanks_append (Framer.isBlank_of_returns h) _)

namespace Framer

/-- What is found on the lines of a line of bytes is what stands behind the prompt. -/
theorem classifyLines_linesOfBytes (bytes : List UInt8) :
    classifyLines (linesOfBytes bytes) =
      classifyLines [String.ofList (bare (lenientChars bytes))] := by
  obtain ⟨returns, hline, hreturns⟩ := exists_dropWhileEnd (· == '\r') (lenientChars bytes)
  have hbare := classifyLine_bare_append (dropWhileEnd (· == '\r') (lenientChars bytes))
    fun c hc => eq_of_beq (hreturns c hc)
  rw [← hline] at hbare
  rw [classifyLines_congr hbare, linesOfBytes]
  split
  · rename_i out hout
    have hprompt : ∀ cs, classifyLines [String.ofList ('>' :: cs)] = .empty := fun cs =>
      classifyLines_of_none (classifyLine_of_prompt cs)
    rw [hout, show bare ('>' :: ' ' :: out) = out from rfl]
    split
    · rename_i hblank
      rw [hprompt, classifyLines_of_none (classifyLine_of_blank hblank)]
    · rw [classifyLines_cons, show prompt = String.ofList ['>'] from rfl, hprompt,
        Findings.empty_append]
  · rename_i hshell
    rw [bare_of_ne hshell]

/-- Nothing is found on a line that is a prompt. -/
theorem classifyLines_of_isPrompt {bytes : List UInt8} (h : isPrompt (decodeLenient bytes) = true) :
    classifyLines (linesOfBytes bytes) = .empty := by
  have htrim : trimBlanks (lenientChars bytes) = ['>'] := isPrompt_ofList.1 h
  rw [classifyLines_linesOfBytes]
  refine classifyLines_of_none ?_
  by_cases hcs : ∃ out, lenientChars bytes = '>' :: ' ' :: out
  · obtain ⟨out, hout⟩ := hcs
    have hshell : trimBlanks ('>' :: ' ' :: out) = '>' :: dropWhileEnd isBlank (' ' :: out) :=
      dropWhileEnd_cons_of_not rfl _
    rw [hout, hshell] at htrim
    obtain ⟨back, hback, hblank⟩ := exists_dropWhileEnd isBlank (' ' :: out)
    rw [(List.cons.inj htrim).2, List.nil_append] at hback
    rw [hout]
    refine classifyLine_of_blank (List.all_eq_true.2 fun c hc => hblank c ?_)
    exact hback ▸ List.mem_cons_of_mem _ hc
  · rw [not_exists] at hcs
    rw [bare_of_ne hcs, classifyLine_congr (b := ['>']) htrim]
    exact classifyLine_of_prompt []

theorem classifyLines_finish (f : Framer) :
    classifyLines f.finish.1 = classifyLines (linesOfBytes f.pending) := by
  unfold finish
  split
  · rename_i hempty
    rw [List.isEmpty_iff.1 hempty]
    rfl
  · rfl

/-- What is found when all output comes at once. -/
theorem classifyLines_run_pieces (bytes : List UInt8) :
    classifyLines (run empty [bytes]) =
      classifyLines ((splitOn 10 bytes).flatMap linesOfBytes) := by
  obtain ⟨closed, hsplit, -, hpush⟩ := empty.push_pieces bytes
  have hpieces : splitOn 10 bytes = closed ++ [empty.unfinished bytes] := hsplit
  rw [run, classifyLines_append, run, classifyLines_finish, hpieces, List.flatMap_append,
    List.flatMap_singleton, classifyLines_append]
  by_cases hprompt : empty.prompts bytes = true
  · have hnone : classifyLines [prompt] = .empty :=
      classifyLines_of_none (classifyLine_of_prompt [])
    have hrest : classifyLines (linesOfBytes empty.pending) = .empty := by decide
    rw [hpush, if_pos hprompt, classifyLines_append, hnone, hrest,
      classifyLines_of_isPrompt hprompt, Findings.append_empty]
  · rw [hpush, if_neg hprompt]

end Framer

/-! ## Both readings -/

/-- What is found on lines does not hang on how they end. -/
theorem classifyLines_linesOf {g : List Char → String} (hnil : classifyLine (g []) = none)
    (hreturns : ∀ cs returns, (∀ c ∈ returns, c = '\r') →
      classifyLine (g (cs ++ returns)) = classifyLine (g cs))
    (cs : List Char) :
    classifyLines ((linesOf cs).map g) = classifyLines ((splitOn '\n' cs).map g) := by
  obtain ⟨closed, rest, hsplit, -⟩ := exists_pieces '\n' cs
  have hdrop : ∀ line, classifyLine (g (dropReturn line)) = classifyLine (g line) := by
    intro line
    unfold dropReturn
    split
    · rename_i hlast
      obtain ⟨front, rfl⟩ := List.getLast?_eq_some_iff.1 hlast
      rw [List.dropLast_concat, hreturns front ['\r'] (by simp)]
    · rfl
  have hclosed : ∀ lines : List (List Char),
      classifyLines ((lines.map dropReturn).map g) = classifyLines (lines.map g) := by
    intro lines
    induction lines with
    | nil => rfl
    | cons line lines ih =>
      rw [List.map_cons, List.map_cons, List.map_cons, classifyLines_cons, ih,
        classifyLines_congr (hdrop line), ← classifyLines_cons]
  rw [linesOf, hsplit, List.dropLast_concat, List.getLast?_concat, Option.getD_some,
    List.map_append, List.map_append, classifyLines_append, classifyLines_append, hclosed]
  split
  · rename_i hempty
    rw [List.isEmpty_iff.1 hempty, List.map_singleton, classifyLines_of_none hnil]
    rfl
  · rfl

theorem withoutPrompt_ofList (cs : List Char) :
    withoutPrompt (String.ofList cs) = String.ofList (bare cs) := by
  rw [withoutPrompt, String.toList_ofList]

/-- A framer finds what stands on the lines of the text behind the prompts. -/
theorem Framer.classifyLines_run (bytes : List UInt8) :
    classifyLines (run empty [bytes]) =
      classifyLines ((lines (decodeLenient bytes)).map withoutPrompt) := by
  have hpieces : ∀ pieces : List (List UInt8), classifyLines (pieces.flatMap linesOfBytes) =
      classifyLines ((pieces.map lenientChars).map fun cs => String.ofList (bare cs)) := by
    intro pieces
    induction pieces with
    | nil => rfl
    | cons piece pieces ih =>
      rw [List.flatMap_cons, classifyLines_append, ih, classifyLines_linesOfBytes,
        ← classifyLines_cons, List.map_cons, List.map_cons]
  have hlines : (lines (decodeLenient bytes)).map withoutPrompt =
      (linesOf (lenientChars bytes)).map fun cs => String.ofList (bare cs) := by
    rw [lines, decodeLenient, String.toList_ofList, List.map_map]
    exact List.map_congr_left fun cs _ => withoutPrompt_ofList cs
  rw [classifyLines_run_pieces, hpieces, ← splitOn_lenientChars (c := '\n') (b := 10) rfl, hlines]
  exact (classifyLines_linesOf (g := fun cs => String.ofList (bare cs)) (classifyLine_of_blank rfl)
    (fun cs _ => classifyLine_bare_append cs) _).symm

/-- The records are among those of the other findings, in the same order. -/
structure Findings.Within (a b : Findings) : Prop where
  summaries : a.summaries.Sublist b.summaries
  telemetry : a.telemetry.Sublist b.telemetry

namespace Findings.Within

theorem refl (a : Findings) : a.Within a := ⟨.refl _, .refl _⟩

theorem append {a b c d : Findings} (h : a.Within b) (h' : c.Within d) : (a ++ c).Within (b ++ d) :=
  ⟨h.summaries.append h'.summaries, h.telemetry.append h'.telemetry⟩

theorem prepend {a b : Findings} (h : a.Within b) (c : Findings) : a.Within (c ++ b) :=
  ⟨h.summaries.trans (List.sublist_append_right ..),
    h.telemetry.trans (List.sublist_append_right ..)⟩

/-- Findings are not among fewer. -/
theorem ne_ofRecord_append {a b : Findings} (h : a.Within b) (r : Record) :
    a ≠ ofRecord r ++ b := by
  rintro rfl
  have hsummaries := h.summaries.length_le
  have htelemetry := h.telemetry.length_le
  rw [summaries_append, List.length_append] at hsummaries
  rw [telemetry_append, List.length_append] at htelemetry
  cases r with
  | telemetry s =>
    have hone : (ofRecord (.telemetry s)).telemetry.length = 1 := rfl
    omega
  | epoch s =>
    have hone : (ofRecord (.epoch s)).summaries.length = 1 := rfl
    omega

end Findings.Within

theorem Findings.append_cancel_left {a b c : Findings} : a ++ b = a ++ c ↔ b = c := by
  refine ⟨fun h => ?_, fun h => h ▸ rfl⟩
  have hsummaries := congrArg Findings.summaries h
  have htelemetry := congrArg Findings.telemetry h
  exact Findings.ext (List.append_cancel_left hsummaries) (List.append_cancel_left htelemetry)

/-- The line starts with the shell's prompt. -/
def Prompted (line : String) : Prop := startsWith "> " line = true

instance (line : String) : Decidable (Prompted line) := inferInstanceAs (Decidable (_ = _))

theorem prompted_iff {line : String} : Prompted line ↔ ∃ out, line.toList = '>' :: ' ' :: out := by
  rw [Prompted, startsWith, List.isPrefixOf_iff_prefix]
  exact ⟨fun ⟨out, hout⟩ => ⟨out, hout.symm⟩, fun ⟨out, hout⟩ => ⟨out, hout.symm⟩⟩

theorem classifyLine_of_prompted {line : String} (h : Prompted line) :
    classifyLine line = none := by
  obtain ⟨out, hout⟩ := prompted_iff.1 h
  rw [← String.ofList_toList (s := line), hout]
  exact classifyLine_of_prompt _

theorem withoutPrompt_of_not_prompted {line : String} (h : ¬ Prompted line) :
    withoutPrompt line = line := by
  rw [prompted_iff, not_exists] at h
  rw [withoutPrompt, bare_of_ne h, String.ofList_toList]

/-- Lines with their prompts show no records but those that they show without, and all of these
unless one stands behind a prompt. -/
theorem classifyLines_withoutPrompt (lines : List String) :
    (classifyLines lines).Within (classifyLines (lines.map withoutPrompt)) ∧
      (classifyLines lines = classifyLines (lines.map withoutPrompt) ↔
        ∀ line ∈ lines, Prompted line → classifyLine (withoutPrompt line) = none) := by
  induction lines with
  | nil => exact ⟨.refl _, iff_of_true rfl (by simp)⟩
  | cons line lines ih =>
    obtain ⟨hwithin, hiff⟩ := ih
    rw [List.map_cons, classifyLines_cons line, classifyLines_cons (withoutPrompt line),
      List.forall_mem_cons]
    by_cases h : Prompted line
    · rw [classifyLines_of_none (classifyLine_of_prompted h), Findings.empty_append]
      cases hbehind : classifyLine (withoutPrompt line) with
      | none =>
        rw [classifyLines_of_none hbehind, Findings.empty_append]
        exact ⟨hwithin, hiff.trans (by simp)⟩
      | some r =>
        have hfound : classifyLines [withoutPrompt line] = .ofRecord r := by
          rw [classifyLines, hbehind]
          exact Findings.append_empty _
        rw [hfound]
        exact ⟨hwithin.prepend _, iff_of_false (hwithin.ne_ofRecord_append r) fun hall =>
          Option.some_ne_none r (hall.1 h)⟩
    · rw [withoutPrompt_of_not_prompted h, Findings.append_cancel_left]
      exact ⟨.append (.refl _) hwithin, hiff.trans (by simp [h])⟩

/-- What is found in the log of an output is found live too, on the lines without their prompts, and
the same is found exactly if no record stands behind a prompt. -/
theorem Framer.classify_eq_iff (bytes : List UInt8) :
    let log := lines (decodeLenient bytes)
    let live := classifyLines (run empty [bytes])
    (classify (decodeLenient bytes)).Within live ∧ live = classifyLines (log.map withoutPrompt) ∧
      (classify (decodeLenient bytes) = live ↔
        ∀ line ∈ log, Prompted line → classifyLine (withoutPrompt line) = none) := by
  intro log live
  have hlive : live = classifyLines (log.map withoutPrompt) := classifyLines_run bytes
  obtain ⟨hwithin, hiff⟩ := classifyLines_withoutPrompt log
  rw [← hlive] at hwithin hiff
  exact ⟨hwithin, hlive, hiff⟩

/-- A summary behind the prompt is found live and not in the log. -/
theorem Framer.classify_eq_iff_behind_prompt :
    let bytes := encode "ok\r\n> \x7b\"epoch\":7,\"pets\":[]\x7d\r\n> "
    run empty [bytes] = ["ok", ">", "\x7b\"epoch\":7,\"pets\":[]\x7d", ">"] ∧
      classifyLines (run empty [bytes]) = ⟨[⟨none, 7, []⟩], []⟩ ∧
      classify (decodeLenient bytes) ≠ classifyLines (run empty [bytes]) := by
  intro bytes
  refine ⟨by decide +kernel, by decide +kernel, fun heq => ?_⟩
  have hbehind :=
    (classify_eq_iff bytes).2.2.1 heq "> \x7b\"epoch\":7,\"pets\":[]\x7d" (by decide +kernel)
    (by decide)
  revert hbehind
  decide +kernel

end ProximityLab
