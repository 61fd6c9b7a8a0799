import ProximityLab.Proofs.Terminal.Findings
import ProximityLab.Session.Basic
import ProximityLab.Snapshot.Basic

/-!
# Transcripts in parts

- **Lines** (`classify_eq_split`, `classify_intercalate`, `classify_join`): what is found in a text
  hangs on its lines alone, not on how they end.
- **Two parts** (`classify_append_feed`, `classify_append_return`): what is found in front of a line
  end and behind it is found alone.
- **All parts** (`classify_parts`): a transcript may be cut at any of its line ends (`Cut`), and the
  findings of the parts, one behind the other, are those of the whole, for a reader and for the
  record of a node.
-/

namespace ProximityLab

open Text

/-! ## Lines -/

/-- How lines end makes no difference to what is found. -/
theorem classify_eq_split (text : String) : classify text = classifyLines (split '\n' text) := by
  rw [classify, lines, split]
  exact classifyLines_linesOf (classifyLine_of_blank rfl)
    (fun cs _ h => classifyLine_congr (trimBlanks_append (Framer.isBlank_of_returns h) cs)) _

section Lines

variable {lines : List String} (h : ∀ line ∈ lines, '\n' ∉ line.toList)
include h

theorem classify_intercalate : classify ("\n".intercalate lines) = classifyLines lines := by
  by_cases hne : lines = []
  · subst hne
    rfl
  · have hsplit : split '\n' ("\n".intercalate lines) = lines := by
      rw [split_eq_map, String.toList_intercalate]
      exact splitOn_intercalate (by simpa using h) (by simpa using hne)
    rw [classify_eq_split, hsplit]

/-- Each line with a line feed of its own: behind the last one there is an empty line. -/
theorem classify_join : classify (String.join (lines.map (· ++ "\n"))) = classifyLines lines := by
  have hsplit : split '\n' (String.join (lines.map (· ++ "\n"))) = lines ++ [""] := by
    have hline : ∀ cs ∈ lines.map String.toList, '\n' ∉ cs := by simpa using h
    have hpieces := splitOn_flatMap_append hline []
    rw [split_eq_map, String.toList_join, List.flatMap_map, List.map_append]
    simpa [List.flatMap_map, splitOn] using hpieces
  have hempty : classifyLine "" = none := rfl
  rw [classify_eq_split, hsplit, classifyLines_append, classifyLines_of_none hempty,
    Findings.append_empty]

end Lines

/-! ## Two parts -/

/-- A line feed between two texts parts what is found in them. -/
theorem classify_append_feed (a b : String) :
    classify (a ++ "\n" ++ b) = classify a ++ classify b := by
  have hsplit : split '\n' (a ++ "\n" ++ b) = split '\n' a ++ split '\n' b := by
    rw [split, split, split, String.toList_append, String.toList_append, List.append_assoc,
      show "\n".toList ++ b.toList = '\n' :: b.toList from rfl, splitOn_append_sep, List.map_append]
  rw [classify_eq_split, hsplit, classifyLines_append, ← classify_eq_split, ← classify_eq_split]

/-- A carriage return at the end of a text makes no difference. -/
theorem classify_append_return (a : String) : classify (a ++ "\r") = classify a := by
  obtain ⟨closed, rest, hsplit, -, -, hrest⟩ := exists_pieces '\n' a.toList
  have hreturn : splitOn '\n' (a ++ "\r").toList = closed ++ [rest ++ ['\r']] := by
    rw [String.toList_append, splitOn_append hsplit, show "\r".toList = ['\r'] from rfl,
      splitOn_of_not_mem (by simpa using hrest)]
  have hline : classifyLine (String.ofList (rest ++ ['\r'])) = classifyLine (String.ofList rest) :=
    classifyLine_congr (trimBlanks_append (List.forall_mem_singleton.2 (by decide)) rest)
  rw [classify_eq_split, classify_eq_split, split, split, hreturn, hsplit, List.map_append,
    List.map_append, classifyLines_append, classifyLines_append, List.map_singleton,
    List.map_singleton, classifyLines_congr hline]

/-! ## All parts -/

/-- The ways in which a line may end. -/
def IsLineEnd (ending : String) : Prop := ending = "\n" ∨ ending = "\r\n"

variable {text ending : String} {parts : List String}

theorem classify_append_lineEnd (h : IsLineEnd ending) (a b : String) :
    classify (a ++ ending ++ b) = classify a ++ classify b := by
  rcases h with rfl | rfl
  · exact classify_append_feed a b
  · rw [show "\r\n" = "\r" ++ "\n" from rfl, ← String.append_assoc, classify_append_feed,
      classify_append_return]

theorem classify_lineEnd (h : IsLineEnd ending) (a : String) :
    classify (a ++ ending) = classify a := by
  have hnone : classify "" = .empty := rfl
  have hfound := classify_append_lineEnd h a ""
  rwa [String.append_empty, hnone, Findings.append_empty] at hfound

/-- The text is cut into parts at some of its line ends. A line end stays with the part in front of
it, or is dropped. -/
inductive Cut : String → List String → Prop where
  | whole (text : String) : Cut text [text]
  | behind (a : String) {ending b : String} {parts : List String} (hend : IsLineEnd ending)
      (h : Cut b parts) :
      Cut (a ++ ending ++ b) ((a ++ ending) :: parts)
  | between (a : String) {ending b : String} {parts : List String} (hend : IsLineEnd ending)
      (h : Cut b parts) :
      Cut (a ++ ending ++ b) (a :: parts)

theorem NodeRecord.absorb_append (r : NodeRecord) (a b : Findings) :
    r.absorb (a ++ b) = (r.absorb a).absorb b := by
  simp [absorb, List.append_assoc]

/-- What a part adds is what it adds alone. -/
theorem Cut.foldl {β : Type} (h : Cut text parts) (take : β → Findings → β)
    (htake : ∀ r a b, take r (a ++ b) = take (take r a) b) (r : β) :
    (parts.map classify).foldl take r = take r (classify text) := by
  induction h generalizing r with
  | whole text => rfl
  | behind a hend _ ih =>
    rw [List.map_cons, List.foldl_cons, ih, classify_lineEnd hend, classify_append_lineEnd hend,
      htake]
  | between a hend _ ih =>
    rw [List.map_cons, List.foldl_cons, ih, classify_append_lineEnd hend, htake]

/-- **Transcripts in parts.** A line feed parts what is found in two texts, whatever they are. The
lines of a capture show in its text what they show as lines. And wherever a transcript is cut at
line ends, the findings of its parts, one behind the other, are those of the whole; a record that
takes in one part after the other has, behind what it had, what is found in the whole, and nothing
else of it changes. -/
theorem classify_parts :
    (∀ a b, classify (a ++ "\n" ++ b) =
      ⟨(classify a).summaries ++ (classify b).summaries,
        (classify a).telemetry ++ (classify b).telemetry⟩) ∧
    (∀ c : Capture, (∀ line ∈ c.lines, '\n' ∉ line.toList) →
      classify c.text = classifyLines c.lines) ∧
    ∀ text parts, Cut text parts →
      (parts.map classify).foldl (· ++ ·) .empty = classify text ∧
        ∀ r : NodeRecord, (parts.map classify).foldl NodeRecord.absorb r =
          { r with
            summaries := r.summaries ++ (classify text).summaries
            telemetry := r.telemetry ++ (classify text).telemetry } := by
  refine ⟨classify_append_feed, fun c hlines => classify_intercalate hlines,
    fun text parts h => ⟨?_, ?_⟩⟩
  · rw [h.foldl (· ++ ·) fun r a b => (Findings.append_assoc r a b).symm, Findings.empty_append]
  · exact h.foldl NodeRecord.absorb NodeRecord.absorb_append

/-- A summary and a sample behind an empty line, and another summary behind a prompt on a line of
its own. The transcript is cut at the prompt, and a record that holds a summary and a sample of an
earlier campaign takes in both parts. -/
theorem classify_parts_kinds :
    let seven := "\x7b\"epoch\":7,\"pets\":[]\x7d"
    let eight := "\x7b\"epoch\":8,\"pets\":[]\x7d"
    let heard := "\x7b\"bn\":\"pepper:ble:aa\",\"n\":\"x\",\"v\":1,\"u\":\"\"\x7d"
    let front := "\r\n" ++ seven ++ "\r\n" ++ heard
    let back := ">\n" ++ eight
    let sample : Sample := ⟨.ble, "aa", none, "pepper", 0, []⟩
    let old : Sample := ⟨.uwb, "bb", some "3", "pepper", 5, []⟩
    let r : NodeRecord := ⟨"dwm1001_1", none, some "ab", [⟨none, 6, []⟩], [old], some .completed⟩
    Cut (front ++ "\r\n" ++ back) [front, back] ∧
      classify (front ++ "\r\n" ++ back) = ⟨[⟨none, 7, []⟩, ⟨none, 8, []⟩], [sample]⟩ ∧
      (r.absorb (classify front)).absorb (classify back) =
        ⟨"dwm1001_1", none, some "ab", [⟨none, 6, []⟩, ⟨none, 7, []⟩, ⟨none, 8, []⟩], [old, sample],
          some .completed⟩ ∧
      classify (Capture.mk ["", seven, heard, ">", eight] .deadline).text =
        ⟨[⟨none, 7, []⟩, ⟨none, 8, []⟩], [sample]⟩ := by
  intro seven eight heard front back sample old r
  have hcut : Cut (front ++ "\r\n" ++ back) [front, back] := .between front (.inr rfl) (.whole back)
  have hfound : classify (front ++ "\r\n" ++ back) =
      ⟨[⟨none, 7, []⟩, ⟨none, 8, []⟩], [sample]⟩ := by
    decide +kernel
  have hparts := (classify_parts.2.2 _ _ hcut).2 r
  rw [hfound] at hparts
  refine ⟨hcut, hfound, hparts, ?_⟩
  rw [classify_parts.2.1 _ (by decide +kernel)]
  decide +kernel

end ProximityLab
