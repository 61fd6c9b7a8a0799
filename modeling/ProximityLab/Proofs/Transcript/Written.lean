import ProximityLab.Proofs.Epoch.Summary
import ProximityLab.Proofs.Transcript.Grammar
import ProximityLab.Proofs.Transcript.Parts

/-!
# Summaries read back from a transcript

- **Lines** (`classifyLine_toLine`): a summary is found on its line as it was written. Telemetry is
  tried first, but all telemetry has a name, and a summary has no member for it
  (`Sample.ofDocument?_of_nameless`).
- **Transcripts** (`classify_interleaved`): a text that has the lines of summaries between other
  lines shows these summaries and nothing else.
-/

namespace ProximityLab

open Text

/-! ## Lines -/

/-- Each element of a telemetry record has a name. -/
theorem Sample.ofDocument?_of_nameless {members : List (Option String × Json)}
    (h : some "n" ∉ members.map (·.1)) :
    ofDocument? (.object members) = none := by
  rw [Option.eq_none_iff_forall_ne_some]
  intro s hs
  obtain ⟨v, hv, items, first, rest, tag, hform, helements, -⟩ := exists_ofDocument?_iff.1 ⟨s, hs⟩
  obtain ⟨values, rfl, hnames⟩ := Json.exists_object_of_settle? hv
  rcases hform with hlist | ⟨rfl, -⟩
  · cases hlist
  · obtain ⟨hfirst, -⟩ := List.forall₂_cons.1 helements
    cases hfirst with
    | object hnamed =>
      obtain ⟨j, hj, -⟩ := hnamed.name
      exact h (hnames _ hj)

namespace Summary

/-- A summary as one line of text. -/
def toLine (s : Summary) : String := s.toJson.render

theorem nameless_toJson (s : Summary) :
    ∃ members, s.toJson = .object members ∧ some "n" ∉ members.map (·.1) := by
  refine ⟨_, rfl, ?_⟩
  cases s.label <;> simp [Json.present]

theorem trim_toLine (s : Summary) : trim s.toLine = s.toLine := by
  obtain ⟨members, hs, -⟩ := s.nameless_toJson
  obtain ⟨cs, hcs⟩ := Json.exists_chars_object members
  rw [trim, toLine, Json.render, String.toList_ofList, hs, hcs,
    trimBlanks_of_ends (by decide) (by decide)]

variable {s : Summary} (h : s.Storable)
include h

theorem read?_toLine : read? s.toLine = some s := by
  rw [read?, toLine, Json.read?_render (faithful.proper h)]
  exact faithful.reads h

/-- The line of a summary is no telemetry. -/
theorem sample_read?_toLine : Sample.read? s.toLine = none := by
  obtain ⟨members, hs, hnameless⟩ := s.nameless_toJson
  rw [Sample.read?, toLine, Json.read?_render (faithful.proper h), hs]
  exact Sample.ofDocument?_of_nameless hnameless

theorem lineFeed_not_mem_toLine : '\n' ∉ s.toLine.toList := by
  rw [toLine, Json.render, String.toList_ofList]
  exact Json.not_mem_chars (faithful.proper h) (by decide)

theorem classifyLine_toLine : classifyLine s.toLine = some (.epoch s) := by
  rw [classifyLine_eq, trim_toLine, sample_read?_toLine h, read?_toLine h]
  rfl

end Summary

/-! ## Transcripts -/

/-- The lines of the summaries, in their order, and between them lines that are no records. -/
inductive Interleaved : List Summary → List String → Prop where
  | nil : Interleaved [] []
  | summary (s : Summary) {ss : List Summary} {lines : List String} (h : Interleaved ss lines) :
      Interleaved (s :: ss) (s.toLine :: lines)
  | noise {line : String} {ss : List Summary} {lines : List String} (hfeed : '\n' ∉ line.toList)
      (hnone : classifyLine line = none) (h : Interleaved ss lines) : Interleaved ss (line :: lines)

namespace Interleaved

variable {ss : List Summary} {lines : List String}

theorem lineFeed_not_mem (h : Interleaved ss lines) (hs : ∀ s ∈ ss, s.Storable) :
    ∀ line ∈ lines, '\n' ∉ line.toList := by
  induction h with
  | nil => simp
  | summary s _ ih =>
    obtain ⟨hs, hss⟩ := List.forall_mem_cons.1 hs
    exact List.forall_mem_cons.2 ⟨Summary.lineFeed_not_mem_toLine hs, ih hss⟩
  | noise hfeed _ _ ih => exact List.forall_mem_cons.2 ⟨hfeed, ih hs⟩

theorem classifyLines_eq (h : Interleaved ss lines) (hs : ∀ s ∈ ss, s.Storable) :
    classifyLines lines = ⟨ss, []⟩ := by
  induction h with
  | nil => rfl
  | summary s _ ih =>
    obtain ⟨hs, hss⟩ := List.forall_mem_cons.1 hs
    rw [classifyLines, Summary.classifyLine_toLine hs, ih hss]
    rfl
  | noise _ hnone _ ih =>
    rw [classifyLines_cons, classifyLines_of_none hnone, ih hs, Findings.empty_append]

end Interleaved

/-- **Summaries in a transcript.** Whatever lines that are no records stand between the lines of
storable summaries, exactly these summaries are found, in their order and each with just the members
that it has, and no telemetry: the reader of telemetry, which comes first, takes none of their
lines. The last line may end in a line feed or not. -/
theorem classify_interleaved {ss : List Summary} {lines : List String} (hs : ∀ s ∈ ss, s.Storable)
    (h : Interleaved ss lines) :
    (∀ s ∈ ss, Sample.read? s.toLine = none) ∧ classify ("\n".intercalate lines) = ⟨ss, []⟩ ∧
      classify (String.join (lines.map (· ++ "\n"))) = ⟨ss, []⟩ := by
  have hlines := h.lineFeed_not_mem hs
  refine ⟨fun s hmem => Summary.sample_read?_toLine (hs s hmem), ?_, ?_⟩
  · rw [classify_intercalate hlines, h.classifyLines_eq hs]
  · rw [classify_join hlines, h.classifyLines_eq hs]

/-- A summary with a mean that is absent and one that is the negative zero. -/
def Summary.sparse : Summary where
  label := some "DW0001:\"door\"\n"
  epoch := 7
  encounters :=
    [⟨"AA", "é", some ⟨3, none, some (.neg .zero), none, some (.ofDecimal true 805 (-1)), some 0,
      none, none, none, none, none⟩, none⟩]

theorem Summary.storable_sparse : sparse.Storable := by
  refine ⟨by decide, ?_⟩
  simp only [sparse, List.forall_mem_singleton]
  refine ⟨?_, nofun⟩
  rintro _ ⟨⟩
  refine ⟨by decide, nofun, ?_, nofun, ?_, ?_, nofun, nofun, nofun, nofun, nofun⟩
  · rintro _ ⟨⟩
    decide +kernel
  · rintro _ ⟨⟩
    decide +kernel
  · rintro _ ⟨⟩
    decide

/-- A line behind a prompt, an empty one and one that is cut off stand around two summaries. -/
theorem classify_interleaved_sparse :
    let lines :=
      ["> epoch\r", "", Summary.sparse.toLine, "\x7b\"epoch\":7,", (⟨none, 8, []⟩ : Summary).toLine]
    (Sample.read? Summary.sparse.toLine = none ∧
      Sample.read? (⟨none, 8, []⟩ : Summary).toLine = none) ∧
      classify ("\n".intercalate lines) = ⟨[.sparse, ⟨none, 8, []⟩], []⟩ ∧
      classify (String.join (lines.map (· ++ "\n"))) = ⟨[.sparse, ⟨none, 8, []⟩], []⟩ := by
  intro lines
  have hstorable : ∀ s ∈ [Summary.sparse, ⟨none, 8, []⟩], s.Storable :=
    List.forall_mem_cons.2 ⟨Summary.storable_sparse,
      List.forall_mem_singleton.2 ⟨by decide, by simp⟩⟩
  have hprompt : classifyLine "> epoch\r" = none := by decide +kernel
  have hempty : classifyLine "" = none := by decide +kernel
  have hcut : classifyLine "\x7b\"epoch\":7," = none := by decide +kernel
  have hlines : Interleaved [.sparse, ⟨none, 8, []⟩] lines :=
    .noise (by decide) hprompt
    (.noise (by decide) hempty (.summary _ (.noise (by decide) hcut (.summary _ .nil))))
  obtain ⟨hnone, hfound⟩ := classify_interleaved hstorable hlines
  exact ⟨by simpa using hnone, hfound⟩

end ProximityLab
