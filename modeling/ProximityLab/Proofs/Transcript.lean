import ProximityLab.Proofs.Snapshot.Stored

/-!
# What is found in a transcript can be stored

`storable_classifyLines`: whatever a device prints, the summaries and samples that are found in it
are storable. Times are checked where they are added, and numbers where they are read.
-/

namespace ProximityLab

/-! ## Samples -/

theorem int64Range_of_addTimes? {a b time : Int} (h : addTimes? a b = some time) :
    Int64Range time := by
  unfold addTimes? at h
  split at h
  · cases h
    assumption
  · cases h

namespace Element

theorem isFinite_of_ofJson? {j : Json} {e : Element} (h : ofJson? j = some e) :
    e.value.isFinite = true := by
  obtain ⟨members, -, h⟩ := Option.bind_eq_some_iff.1 h
  split at h
  · simp only [Option.bind_eq_bind, Option.bind_eq_some_iff, Option.pure_def, Option.some.injEq]
      at h
    obtain ⟨_, -, _, -, _, hvalue, _, -, _, -, _, -, rfl⟩ := h
    exact Json.faithful_float.of_need hvalue
  · cases h

theorem storable_of_measure? {base : Int} {e : Element} {q : Quantity} {m : Measurement}
    (he : e.value.isFinite = true) (h : e.measure? base q = some m) : m.Storable := by
  obtain ⟨time, htime, rfl⟩ := Option.map_eq_some_iff.1 h
  exact ⟨he, int64Range_of_addTimes? htime⟩

end Element

namespace Sample

theorem storable_of_measurements? {base : Int} {es : List Element} {ms : List Measurement}
    (hes : ∀ e ∈ es, e.value.isFinite = true) (h : measurements? base es = some ms) :
    ∀ m ∈ ms, m.Storable := by
  induction es generalizing ms with
  | nil =>
    cases h
    simp
  | cons e es ih =>
    obtain ⟨he, hes⟩ := List.forall_mem_cons.1 hes
    rw [measurements?] at h
    split at h
    · exact ih hes h
    · simp only [Option.bind_eq_bind, Option.bind_eq_some_iff, Option.pure_def, Option.some.injEq]
        at h
      obtain ⟨m, hm, rest, hrest, rfl⟩ := h
      exact List.forall_mem_cons.2 ⟨Element.storable_of_measure? he hm, ih hes hrest⟩

theorem storable_of_ofElements? {es : List Element} {s : Sample}
    (hes : ∀ e ∈ es, e.value.isFinite = true) (h : ofElements? es = some s) : s.Storable := by
  cases es with
  | nil => cases h
  | cons first rest =>
    simp only [ofElements?, Option.bind_eq_bind, Option.bind_eq_some_iff, Option.pure_def,
      Option.some.injEq] at h
    obtain ⟨_, -, _, -, ms, hms, time, htime, rfl⟩ := h
    exact ⟨int64Range_of_addTimes? htime, storable_of_measurements? hes hms⟩

/-- Each sample that is read off a line is storable. -/
theorem storable_of_read? {line : String} {s : Sample} (h : read? line = some s) : s.Storable := by
  obtain ⟨j, -, h⟩ := Option.bind_eq_some_iff.1 h
  obtain ⟨v, -, h⟩ := Option.bind_eq_some_iff.1 h
  split at h
  · rename_i items
    obtain ⟨es, hes, h⟩ := Option.bind_eq_some_iff.1 h
    have hitems : Json.toList? Element.ofJson? (.array items) = some es := hes
    refine storable_of_ofElements? (fun e he => ?_) h
    obtain ⟨j, hj⟩ := (Json.reads_of_toList? hitems).2 e he
    exact Element.isFinite_of_ofJson? hj
  · obtain ⟨e, he, h⟩ := Option.bind_eq_some_iff.1 h
    exact storable_of_ofElements? (by simpa using Element.isFinite_of_ofJson? he) h
  · cases h

end Sample

/-- Each summary that is read off a line is storable. -/
theorem Summary.storable_of_read? {line : String} {s : Summary} (h : read? line = some s) :
    s.Storable := by
  obtain ⟨j, -, h⟩ := Option.bind_eq_some_iff.1 h
  exact faithful.admits h

/-! ## Findings -/

/-- All records are storable. -/
structure Findings.Storable (f : Findings) : Prop where
  summaries : ∀ s ∈ f.summaries, s.Storable
  telemetry : ∀ s ∈ f.telemetry, s.Storable

theorem Findings.Storable.append {a b : Findings} (ha : a.Storable) (hb : b.Storable) :
    (a ++ b).Storable :=
  ⟨List.forall_mem_append.2 ⟨ha.summaries, hb.summaries⟩,
    List.forall_mem_append.2 ⟨ha.telemetry, hb.telemetry⟩⟩

theorem storable_of_classifyLine {line : String} {r : Record} (h : classifyLine line = some r) :
    (Findings.ofRecord r).Storable := by
  unfold classifyLine at h
  dsimp only at h
  split at h
  · cases h
  · split at h
    · rename_i s hs
      cases h
      exact ⟨by simp [Findings.ofRecord],
        by simpa [Findings.ofRecord] using Sample.storable_of_read? hs⟩
    · obtain ⟨s, hs, rfl⟩ := Option.map_eq_some_iff.1 h
      exact ⟨by simpa [Findings.ofRecord] using Summary.storable_of_read? hs,
        by simp [Findings.ofRecord]⟩

/-- What is found in lines is storable. -/
theorem storable_classifyLines (lines : List String) : (classifyLines lines).Storable := by
  induction lines with
  | nil => exact ⟨by simp [classifyLines, Findings.empty], by simp [classifyLines, Findings.empty]⟩
  | cons line lines ih =>
    unfold classifyLines
    split
    · rename_i r hr
      exact (storable_of_classifyLine hr).append ih
    · exact ih

/-- A record takes in storable findings only. -/
theorem NodeRecord.Reported.absorb {r : NodeRecord} (h : r.Reported) {f : Findings}
    (hf : f.Storable) :
    (r.absorb f).Reported :=
  ⟨List.forall_mem_append.2 ⟨h.summaries, hf.summaries⟩,
    List.forall_mem_append.2 ⟨h.telemetry, hf.telemetry⟩⟩

end ProximityLab
