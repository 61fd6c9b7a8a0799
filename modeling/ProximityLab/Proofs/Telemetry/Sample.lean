import ProximityLab.Proofs.Json.Record
import ProximityLab.Telemetry.Sample

/-!
# Stored samples

`Sample.Storable` says of a sample that its times are of 64 bits and its values finite.
`Sample.faithful`: exactly the storable samples are written and read back.
-/

namespace ProximityLab

open Json (Faithful)

theorem faithful_time : Faithful Int64Range Json.int Json.toInt64? := by
  have h := Json.faithful_int (-0x8000000000000000) 0x7fffffffffffffff
  exact {
    proper := fun _ => .number (Numeral.proper_ofInt _)
    ne_null := fun _ => nofun
    reads := fun hi => h.reads ⟨hi.1, Int.le_of_lt_add_one hi.2⟩
    admits := fun hi => ⟨(h.admits hi).1, Int.lt_of_le_of_lt (h.admits hi).2 (by decide)⟩ }

theorem Quantity.ofName?_name (q : Quantity) : ofName? q.name = some q := by cases q <;> rfl

/-! ## Measurements -/

namespace Measurement

/-- The value is finite and the time is of 64 bits. -/
structure Storable (m : Measurement) : Prop where
  value : m.value.isFinite = true
  time : Int64Range m.time

theorem faithful : Faithful Storable toJson ofJson? where
  proper {m} h := by
    refine Json.proper_obj ?_
    simp only [List.forall_mem_cons]
    exact ⟨.string _, Json.faithful_float.proper h.value, .string _, faithful_time.proper h.time,
      nofun⟩
  ne_null _ := nofun
  reads {m} h := by
    have hmembers : (toJson m).membersOf? schema = some _ := Json.membersOf?_obj rfl (by decide)
    rw [ofJson?, hmembers]
    simp only [List.map_cons, List.map_nil, Option.bind_eq_bind, Option.bind_some, Option.pure_def,
      (Json.faithful_choice Quantity.ofName?_name).need trivial, Json.faithful_float.need h.value,
      Json.faithful_text.need trivial, faithful_time.need h.time]
  admits h := by
    obtain ⟨members, -, h⟩ := Option.bind_eq_some_iff.1 h
    split at h
    · simp only [Option.bind_eq_bind, Option.bind_eq_some_iff, Option.pure_def, Option.some.injEq]
        at h
      obtain ⟨_, -, _, hvalue, _, -, _, htime, rfl⟩ := h
      exact ⟨Json.faithful_float.of_need hvalue, faithful_time.of_need htime⟩
    · cases h

end Measurement

/-! ## Samples -/

namespace Sample

/-- The time is of 64 bits and the measurements are storable. -/
structure Storable (s : Sample) : Prop where
  time : Int64Range s.time
  measurements : ∀ m ∈ s.measurements, m.Storable

theorem faithful : Faithful Storable toJson ofJson? where
  proper h := by
    refine Json.proper_present ?_
    simp only [List.forall_mem_cons, Option.mem_some_iff, forall_eq']
    exact ⟨.string _, .string _, Json.faithful_text.proper_map (fun _ _ => trivial), .string _,
      faithful_time.proper h.time, Measurement.faithful.list.proper h.measurements, nofun⟩
  ne_null _ := nofun
  reads {s} h := by
    have hmembers : (toJson s).membersOf? schema = some _ :=
      Json.membersOf?_present
      ⟨rfl, by decide, by simp [schema, Json.Member.required, Json.Member.mayMiss]⟩
    rw [ofJson?, hmembers]
    simp only [List.map_cons, List.map_nil, Option.bind_eq_bind, Option.bind_some, Option.pure_def,
      (Json.faithful_choice Radio.ofName?_name).need trivial, Json.faithful_text.need trivial,
      Json.faithful_text.maybe (fun _ _ => trivial), faithful_time.need h.time,
      Measurement.faithful.list.need h.measurements]
  admits h := by
    obtain ⟨members, -, h⟩ := Option.bind_eq_some_iff.1 h
    split at h
    · simp only [Option.bind_eq_bind, Option.bind_eq_some_iff, Option.pure_def, Option.some.injEq]
        at h
      obtain ⟨_, -, _, -, _, -, _, -, _, htime, _, hmeasurements, rfl⟩ := h
      exact ⟨faithful_time.of_need htime, Measurement.faithful.list.of_need hmeasurements⟩
    · cases h

end Sample

end ProximityLab
