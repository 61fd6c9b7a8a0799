import ProximityLab.Proofs.Snapshot.Stored
import ProximityLab.Proofs.Text.Lines

/-!
# Logs read back

`ofLog_toLog`: a log of storable snapshots has one line for each of them and is read as these
snapshots, and whatever text is read as a log, the log written from the result is read as the same.
-/

namespace ProximityLab

/-! ## Logs -/

namespace Snapshot

theorem toList_toLog (ss : List Snapshot) :
    (toLog ss).toList = (ss.map fun s => s.toJson.chars).flatMap fun cs => cs ++ ['\n'] := by
  rw [toLog, String.toList_join, List.flatMap_map, List.flatMap_map]
  simp [toLine, Json.render]

/-- A log has one line for each snapshot, the document of that snapshot. -/
theorem lines_toLog {ss : List Snapshot} (h : ∀ s ∈ ss, Json.Proper s.toJson) :
    Text.lines (toLog ss) = ss.map toLine := by
  have hline : ∀ cs ∈ ss.map fun s => s.toJson.chars, '\n' ∉ cs ∧ '\r' ∉ cs := by
    intro cs hcs
    obtain ⟨s, hs, rfl⟩ := List.mem_map.1 hcs
    exact ⟨Json.not_mem_chars (h s hs) (by decide), Json.not_mem_chars (h s hs) (by decide)⟩
  rw [Text.lines, toList_toLog, Text.linesOf_flatMap hline, List.map_map]
  rfl

theorem not_isBlankText_toLine (s : Snapshot) : Text.isBlankText s.toLine = false := by
  obtain ⟨cs, hcs⟩ : ∃ cs, s.toJson.chars = Json.openBrace :: cs := ⟨_, rfl⟩
  have hbrace : Text.isBlank Json.openBrace = false := by decide
  simp [Text.isBlankText, toLine, Json.render, hcs, hbrace]

/-- The line of a storable snapshot is read as that snapshot. -/
theorem ofLine?_toLine {s : Snapshot} (h : s.Storable) : ofLine? s.toLine = some s := by
  rw [ofLine?, toLine, Json.read?_render (faithful.proper h)]
  exact faithful.reads h

theorem ofLines_toLine {ss : List Snapshot} (h : ∀ s ∈ ss, s.Storable) (n : Nat) :
    ofLines ((ss.map toLine).zipIdx n) = .ok ss := by
  induction ss generalizing n with
  | nil => rfl
  | cons s ss ih =>
    obtain ⟨hs, hss⟩ := List.forall_mem_cons.1 h
    rw [List.map_cons, List.zipIdx_cons, ofLines, not_isBlankText_toLine, ofLine?_toLine hs, ih hss]
    rfl

/-- Only storable snapshots are read. -/
theorem storable_of_ofLines {lines : List (String × Nat)} {ss : List Snapshot}
    (h : ofLines lines = .ok ss) :
    ∀ s ∈ ss, s.Storable := by
  induction lines generalizing ss with
  | nil =>
    cases h
    exact fun _ => nofun
  | cons line lines ih =>
    rw [ofLines] at h
    split at h
    · exact ih h
    · split at h
      · cases h
      · rename_i s hs
        obtain ⟨j, -, hj⟩ := Option.bind_eq_some_iff.1 hs
        cases hrest : ofLines lines with
        | error e =>
          rw [hrest] at h
          cases h
        | ok rest =>
          rw [hrest] at h
          cases h
          exact List.forall_mem_cons.2 ⟨faithful.admits hj, ih hrest⟩

theorem ofLog_of_storable {ss : List Snapshot} (h : ∀ s ∈ ss, s.Storable) :
    ofLog (toLog ss) = .ok ss := by
  rw [ofLog, lines_toLog fun s hs => faithful.proper (h s hs)]
  exact ofLines_toLine h 1

/-- Storable snapshots survive their log: it has one line for each, and reading it gives them back.
Whatever is read from any text, with unknown members, records in array form, blank lines or other
spacing, survives too. -/
theorem ofLog_toLog :
    (∀ ss : List Snapshot, (∀ s ∈ ss, s.Storable) →
      Text.lines (toLog ss) = ss.map toLine ∧ ofLog (toLog ss) = .ok ss) ∧
    ∀ (text : String) (ss : List Snapshot), ofLog text = .ok ss → ofLog (toLog ss) = .ok ss :=
  ⟨fun _ h => ⟨lines_toLog fun s hs => faithful.proper (h s hs), ofLog_of_storable h⟩,
    fun _ _ h => ofLog_of_storable (storable_of_ofLines h)⟩

/-- A snapshot with a value for every kind of member, the cause of its outcome with a line feed in
it. -/
def filled : Snapshot :=
  ⟨[{ node := "dwm1001_1", position := some ⟨.ofInt 1, .ofInt (-2), .zero⟩, uid := some "DW0001"
      summaries :=
        [⟨some "DW0001:door", 7, [⟨"AA", "BB", none, some ⟨3, some 4, some (.ofInt (-44)), none⟩⟩]⟩]
      telemetry :=
        [⟨.ble, "2ede8fd6", none, "pepper", 83782, [⟨.rssi, .ofInt (-52), "dBm", 83782⟩]⟩]
      outcome := some (.failed "closed\n") }]⟩

theorem storable_filled : filled.Storable := by
  simp only [Storable, filled, List.forall_mem_singleton]
  refine ⟨⟨?_, ?_⟩, ?_⟩
  · simp only [List.forall_mem_singleton]
    refine ⟨by decide, ?_⟩
    simp only [List.forall_mem_singleton]
    refine ⟨nofun, ?_⟩
    rintro _ ⟨⟩
    exact ⟨by decide, by simp, by simpa using by decide +kernel, nofun⟩
  · simp only [List.forall_mem_singleton]
    refine ⟨by decide, ?_⟩
    simp only [List.forall_mem_singleton]
    exact ⟨by decide +kernel, by decide⟩
  · rintro _ ⟨⟩
    exact ⟨by decide +kernel, by decide +kernel, by decide +kernel⟩

theorem ofLog_toLog_filled :
    (Text.lines (toLog [filled, filled]) = [filled.toLine, filled.toLine] ∧
      ofLog (toLog [filled, filled]) = .ok [filled, filled]) ∧
    ofLog "\n\x7b\"run\":1, \"nodes\":[[\"dwm1001_1\"]]\x7d\r\n[[]]" =
      .ok [⟨[.new "dwm1001_1" none]⟩, ⟨[]⟩] ∧
    ofLog (toLog [⟨[.new "dwm1001_1" none]⟩, ⟨[]⟩]) = .ok [⟨[.new "dwm1001_1" none]⟩, ⟨[]⟩] := by
  have hread : ofLog "\n\x7b\"run\":1, \"nodes\":[[\"dwm1001_1\"]]\x7d\r\n[[]]" =
      .ok [⟨[.new "dwm1001_1" none]⟩, ⟨[]⟩] := by
    decide +kernel
  exact ⟨ofLog_toLog.1 _ (by simp [storable_filled]), hread, ofLog_toLog.2 _ _ hread⟩

end Snapshot

end ProximityLab
