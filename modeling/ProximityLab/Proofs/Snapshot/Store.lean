import ProximityLab.Proofs.FileSystem.Write
import ProximityLab.Proofs.Snapshot.Log
import ProximityLab.Proofs.Text.Utf8
import ProximityLab.Snapshot.Store

/-!
# Stored snapshots loaded again

`read_save`: a data file holds the log that was saved last. What loading makes of it depends on the
positions alone, given that all else is storable: with finite coordinates the snapshot comes back
(`load_of_storable`), with others its line is no snapshot (`load_of_not_storable`).
-/

namespace ProximityLab

namespace Snapshot

/-- A snapshot with a position that is not finite is not read back. -/
theorem ofLog_of_not_storable {s : Snapshot} (h : ∀ r ∈ s.nodes, r.Reported)
    (hposition : ¬ ∀ r ∈ s.nodes, ∀ p ∈ r.position, p.Storable) :
    ofLog (toLog [s]) = .error ⟨1⟩ := by
  have hproper := proper_toJson h
  have hread : ofLine? s.toLine = none := by
    rw [ofLine?, toLine, Json.read?_render hproper]
    cases hj : ofJson? s.toJson with
    | none => exact hj
    | some s' => exact absurd (positions_of_reads hj) hposition
  rw [ofLog, lines_toLog (by simpa using hproper), List.map_singleton, List.zipIdx_singleton,
    ofLines, not_isBlankText_toLine, hread]
  rfl

end Snapshot

namespace Store

variable {fs fs' : FileSystem} {path : String}

/-- The data file holds what was saved. -/
theorem read_save {ss : List Snapshot} (h : save fs path ss = (.ok (), fs')) :
    fs'.read path = .ok (Text.encode (Snapshot.toLog ss)) := by
  unfold save at h
  split at h
  · cases h
  · split at h
    · rename_i hw
      cases h
      exact FileSystem.read_write hw
    · cases h

/-- Saving fails by writing only. -/
theorem save_error {ss : List Snapshot} {cause : StoreError}
    (h : save fs path ss = (.error cause, fs')) :
    ∃ target failure, cause = .write target failure := by
  unfold save at h
  split at h
  · rename_i hroom
    cases h
    unfold makeRoom at hroom
    split at hroom
    · rename_i dir _
      dsimp only at hroom
      rcases hmade : (fs.makeDirs dir).1 with failure | _ <;> rw [hmade] at hroom <;> cases hroom
      exact ⟨dir, failure, rfl⟩
    · cases hroom
  · split at h <;> cases h
    exact ⟨path, _, rfl⟩

theorem load_of_read {ss : List Snapshot}
    (h : fs.read path = .ok (Text.encode (Snapshot.toLog ss))) :
    load fs path = (Snapshot.ofLog (Snapshot.toLog ss)).mapError .malformed := by
  rw [load, FileSystem.readText, h]
  simp [bind, Except.bind, Text.decode?_encode, Except.mapError]

theorem load_of_storables {ss : List Snapshot}
    (h : fs.read path = .ok (Text.encode (Snapshot.toLog ss))) (hs : ∀ s ∈ ss, s.Storable) :
    load fs path = .ok ss := by
  rw [load_of_read h, Snapshot.ofLog_of_storable hs]
  rfl

theorem load_of_storable {s : Snapshot} (h : fs.read path = .ok (Text.encode (Snapshot.toLog [s])))
    (hs : s.Storable) : load fs path = .ok [s] := load_of_storables h (by simpa using hs)

theorem load_of_not_storable {s : Snapshot}
    (h : fs.read path = .ok (Text.encode (Snapshot.toLog [s]))) (hs : ∀ r ∈ s.nodes, r.Reported)
    (hposition : ¬ ∀ r ∈ s.nodes, ∀ p ∈ r.position, p.Storable) :
    load fs path = .error (.malformed ⟨1⟩) := by
  rw [load_of_read h, Snapshot.ofLog_of_not_storable hs hposition]
  rfl

end Store

end ProximityLab
