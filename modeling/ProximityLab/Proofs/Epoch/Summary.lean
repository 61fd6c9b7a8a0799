import ProximityLab.Epoch.Summary
import ProximityLab.Proofs.Json.Record

/-!
# Stored summaries

`Summary.Storable` says of a summary that its numbers are in the range of their members: counts of
32 bits, an epoch of 64 bits, finite means. `Summary.faithful`: exactly the storable summaries are
written and read back.
-/

namespace ProximityLab

open Json (Faithful)

/-! ## Statistics -/

/-- The counts are of 32 bits and the means are finite. -/
structure UwbStats.Storable (s : UwbStats) : Prop where
  exposure : s.exposure < 2 ^ 32
  requests : ∀ n ∈ s.requests, n < 2 ^ 32
  meanDistance : ∀ x ∈ s.meanDistance, x.isFinite = true
  meanLineOfSight : ∀ x ∈ s.meanLineOfSight, x.isFinite = true
  meanRssi : ∀ x ∈ s.meanRssi, x.isFinite = true
  listenScheduled : ∀ n ∈ s.listenScheduled, n < 2 ^ 32
  listenAborted : ∀ n ∈ s.listenAborted, n < 2 ^ 32
  listenTimeout : ∀ n ∈ s.listenTimeout, n < 2 ^ 32
  requestScheduled : ∀ n ∈ s.requestScheduled, n < 2 ^ 32
  requestAborted : ∀ n ∈ s.requestAborted, n < 2 ^ 32
  requestTimeout : ∀ n ∈ s.requestTimeout, n < 2 ^ 32

theorem UwbStats.faithful : Faithful Storable toJson ofJson? where
  proper h := by
    have count := Json.faithful_nat 32
    have mean := Json.faithful_float
    refine Json.proper_present ?_
    simp only [List.forall_mem_cons, Option.mem_some_iff, forall_eq']
    exact ⟨count.proper h.exposure, count.proper_map h.requests, mean.proper_map h.meanDistance,
      mean.proper_map h.meanLineOfSight, mean.proper_map h.meanRssi,
      count.proper_map h.listenScheduled, count.proper_map h.listenAborted,
      count.proper_map h.listenTimeout, count.proper_map h.requestScheduled,
      count.proper_map h.requestAborted, count.proper_map h.requestTimeout, nofun⟩
  ne_null _ := nofun
  reads {s} h := by
    have count := Json.faithful_nat 32
    have mean := Json.faithful_float
    have hmembers : (toJson s).membersOf? schema = some _ :=
      Json.membersOf?_present
      ⟨rfl, by decide, by simp [schema, Json.Member.required, Json.Member.mayMiss]⟩
    rw [ofJson?, hmembers]
    simp only [List.map_cons, List.map_nil, Option.bind_eq_bind, Option.bind_some, Option.pure_def,
      count.need h.exposure, count.maybe h.requests, mean.maybe h.meanDistance,
      mean.maybe h.meanLineOfSight, mean.maybe h.meanRssi, count.maybe h.listenScheduled,
      count.maybe h.listenAborted, count.maybe h.listenTimeout, count.maybe h.requestScheduled,
      count.maybe h.requestAborted, count.maybe h.requestTimeout]
  admits h := by
    have count := Json.faithful_nat 32
    have mean := Json.faithful_float
    obtain ⟨members, -, h⟩ := Option.bind_eq_some_iff.1 h
    split at h
    · simp only [Option.bind_eq_bind, Option.bind_eq_some_iff, Option.pure_def, Option.some.injEq]
        at h
      obtain ⟨_, h₁, _, h₂, _, h₃, _, h₄, _, h₅, _, h₆, _, h₇, _, h₈, _, h₉, _, h₁₀, _, h₁₁, rfl⟩ :=
        h
      exact ⟨count.of_need h₁, count.of_maybe h₂, mean.of_maybe h₃, mean.of_maybe h₄,
        mean.of_maybe h₅, count.of_maybe h₆, count.of_maybe h₇, count.of_maybe h₈,
        count.of_maybe h₉, count.of_maybe h₁₀, count.of_maybe h₁₁⟩
    · cases h

/-- The counts are of 32 bits and the means are finite. -/
structure BleStats.Storable (s : BleStats) : Prop where
  exposure : s.exposure < 2 ^ 32
  scans : ∀ n ∈ s.scans, n < 2 ^ 32
  meanRssi : ∀ x ∈ s.meanRssi, x.isFinite = true
  meanDistance : ∀ x ∈ s.meanDistance, x.isFinite = true

theorem BleStats.faithful : Faithful Storable toJson ofJson? where
  proper h := by
    refine Json.proper_present ?_
    simp only [List.forall_mem_cons, Option.mem_some_iff, forall_eq']
    exact ⟨(Json.faithful_nat 32).proper h.exposure, (Json.faithful_nat 32).proper_map h.scans,
      Json.faithful_float.proper_map h.meanRssi, Json.faithful_float.proper_map h.meanDistance,
      nofun⟩
  ne_null _ := nofun
  reads {s} h := by
    have hmembers : (toJson s).membersOf? schema = some _ :=
      Json.membersOf?_present
      ⟨rfl, by decide, by simp [schema, Json.Member.required, Json.Member.mayMiss]⟩
    rw [ofJson?, hmembers]
    simp only [List.map_cons, List.map_nil, Option.bind_eq_bind, Option.bind_some, Option.pure_def,
      (Json.faithful_nat 32).need h.exposure, (Json.faithful_nat 32).maybe h.scans,
      Json.faithful_float.maybe h.meanRssi, Json.faithful_float.maybe h.meanDistance]
  admits h := by
    obtain ⟨members, -, h⟩ := Option.bind_eq_some_iff.1 h
    split at h
    · simp only [Option.bind_eq_bind, Option.bind_eq_some_iff, Option.pure_def, Option.some.injEq]
        at h
      obtain ⟨_, hexposure, _, hscans, _, hrssi, _, hdistance, rfl⟩ := h
      exact ⟨(Json.faithful_nat 32).of_need hexposure, (Json.faithful_nat 32).of_maybe hscans,
        Json.faithful_float.of_maybe hrssi, Json.faithful_float.of_maybe hdistance⟩
    · cases h

/-! ## Encounters -/

/-- The statistics are storable. -/
structure Encounter.Storable (e : Encounter) : Prop where
  uwb : ∀ s ∈ e.uwb, s.Storable
  ble : ∀ s ∈ e.ble, s.Storable

namespace Encounter

/-- An encounter without its entry. -/
def toPet (e : Encounter) : Json :=
  .obj (Json.present
    [("etl", some (.text e.longTerm)), ("rtl", some (.text e.rolling)),
      ("uwb", e.uwb.map UwbStats.toJson), ("ble", e.ble.map BleStats.toJson)])

theorem faithful_pet : Faithful Storable toPet ofPet? where
  proper h := by
    refine Json.proper_present ?_
    simp only [List.forall_mem_cons, Option.mem_some_iff, forall_eq']
    exact ⟨.string _, .string _, UwbStats.faithful.proper_map h.uwb,
      BleStats.faithful.proper_map h.ble, nofun⟩
  ne_null _ := nofun
  reads {e} h := by
    have hmembers : (toPet e).membersOf? schema = some _ :=
      Json.membersOf?_present
      ⟨rfl, by decide, by simp [schema, Json.Member.required, Json.Member.mayMiss]⟩
    rw [ofPet?, hmembers]
    simp only [List.map_cons, List.map_nil, Option.bind_eq_bind, Option.bind_some, Option.pure_def,
      Json.faithful_text.need trivial, UwbStats.faithful.maybe h.uwb, BleStats.faithful.maybe h.ble]
  admits h := by
    obtain ⟨members, -, h⟩ := Option.bind_eq_some_iff.1 h
    split at h
    · simp only [Option.bind_eq_bind, Option.bind_eq_some_iff, Option.pure_def, Option.some.injEq]
        at h
      obtain ⟨_, -, _, -, _, huwb, _, hble, rfl⟩ := h
      exact ⟨UwbStats.faithful.of_maybe huwb, BleStats.faithful.of_maybe hble⟩
    · cases h

theorem faithful : Faithful Storable toJson ofJson? where
  proper {e} h := by
    refine Json.proper_obj ?_
    rw [List.forall_mem_singleton]
    exact faithful_pet.proper h
  ne_null _ := nofun
  reads {e} h := by
    have hmembers : (toJson e).membersOf? entrySchema = some _ :=
      Json.membersOf?_obj rfl (by decide)
    rw [ofJson?, hmembers]
    exact faithful_pet.need h
  admits h := by
    obtain ⟨members, -, h⟩ := Option.bind_eq_some_iff.1 h
    split at h
    · exact faithful_pet.of_need h
    · cases h

end Encounter

/-! ## Summaries -/

namespace Summary

/-- The epoch is of 64 bits and the encounters are storable. -/
structure Storable (s : Summary) : Prop where
  epoch : s.epoch < 2 ^ 64
  encounters : ∀ e ∈ s.encounters, e.Storable

theorem faithful : Faithful Storable toJson ofJson? where
  proper h := by
    refine Json.proper_present ?_
    simp only [List.forall_mem_cons, Option.mem_some_iff, forall_eq']
    exact ⟨Json.faithful_text.proper_map (fun _ _ => trivial),
      (Json.faithful_nat 64).proper h.epoch, Encounter.faithful.list.proper h.encounters, nofun⟩
  ne_null _ := nofun
  reads {s} h := by
    have hmembers : (toJson s).membersOf? schema = some _ :=
      Json.membersOf?_present
      ⟨rfl, by decide, by simp [schema, Json.Member.required, Json.Member.mayMiss]⟩
    rw [ofJson?, hmembers]
    simp only [List.map_cons, List.map_nil, Option.bind_eq_bind, Option.bind_some, Option.pure_def,
      Json.faithful_text.maybe (fun _ _ => trivial), (Json.faithful_nat 64).need h.epoch,
      Encounter.faithful.list.need h.encounters]
  admits h := by
    obtain ⟨members, -, h⟩ := Option.bind_eq_some_iff.1 h
    split at h
    · simp only [Option.bind_eq_bind, Option.bind_eq_some_iff, Option.pure_def, Option.some.injEq]
        at h
      obtain ⟨_, -, _, hepoch, _, hencounters, rfl⟩ := h
      exact ⟨(Json.faithful_nat 64).of_need hepoch, Encounter.faithful.list.of_need hencounters⟩
    · cases h

end Summary

end ProximityLab
