import ProximityLab.Snapshot.Log
import ProximityLab.Proofs.Epoch.Summary
import ProximityLab.Proofs.Telemetry.Sample

/-!
# Stored snapshots read back

`Snapshot.Storable` says of a snapshot that its counts and times are in the range of their members
and that all its floating point numbers are finite. `Snapshot.faithful`: exactly the storable
snapshots are written and read back.
-/

namespace ProximityLab

open Json (Faithful)

/-! ## Positions and outcomes -/

namespace Position

/-- The coordinates are finite. -/
structure Storable (p : Position) : Prop where
  x : p.x.isFinite = true
  y : p.y.isFinite = true
  z : p.z.isFinite = true

/-- Coordinates have a text, whatever they are. -/
theorem proper_toJson (p : Position) : Json.Proper p.toJson := by
  refine .array ?_
  simp only [List.forall_mem_cons]
  exact ⟨Json.proper_float p.x, Json.proper_float p.y, Json.proper_float p.z, nofun⟩

/-- Coordinates that are read back are finite. -/
theorem storable_of_reads {p q : Position} (h : ofJson? p.toJson = some q) : p.Storable := by
  simp only [toJson, ofJson?, Option.bind_eq_bind, Option.bind_eq_some_iff, Option.pure_def] at h
  obtain ⟨_, hx, _, hy, _, hz, -⟩ := h
  exact ⟨Json.isFinite_of_toFinite?_float hx, Json.isFinite_of_toFinite?_float hy,
    Json.isFinite_of_toFinite?_float hz⟩

theorem faithful : Faithful Storable toJson ofJson? where
  proper {p} _ := p.proper_toJson
  ne_null _ := nofun
  reads h := by
    simp [toJson, ofJson?, Json.faithful_float.reads h.x, Json.faithful_float.reads h.y,
      Json.faithful_float.reads h.z]
  admits {j p} h := by
    unfold ofJson? at h
    split at h
    · simp only [Option.bind_eq_bind, Option.bind_eq_some_iff, Option.pure_def, Option.some.injEq]
        at h
      obtain ⟨_, hx, _, hy, _, hz, rfl⟩ := h
      exact ⟨Json.faithful_float.admits hx, Json.faithful_float.admits hy,
        Json.faithful_float.admits hz⟩
    · cases h

end Position

namespace Outcome

theorem faithful : Faithful (fun _ => True) toJson ofJson? where
  proper _ := by
    refine Json.proper_present ?_
    simp only [List.forall_mem_cons, Option.mem_some_iff, forall_eq']
    exact ⟨.string _, Json.faithful_text.proper_map (fun _ _ => trivial), nofun⟩
  ne_null _ := nofun
  reads {o} _ := by cases o <;> rfl
  admits _ := trivial

end Outcome

/-! ## Records -/

namespace NodeRecord

/-- What the device has reported is storable. -/
structure Reported (r : NodeRecord) : Prop where
  summaries : ∀ s ∈ r.summaries, s.Storable
  telemetry : ∀ s ∈ r.telemetry, s.Storable

/-- What the device has reported is storable, and so is its position. -/
structure Storable (r : NodeRecord) : Prop extends Reported r where
  position : ∀ p ∈ r.position, p.Storable

/-- A record has a text, whatever its position is. -/
theorem proper_toJson {r : NodeRecord} (h : r.Reported) : Json.Proper r.toJson := by
  have hposition : Json.Proper (Json.nullable Position.toJson r.position) := by
    cases r.position with
    | none => exact .null
    | some p => exact p.proper_toJson
  refine Json.proper_present ?_
  simp only [List.forall_mem_cons, Option.mem_some_iff, forall_eq']
  exact ⟨.string _, hposition, Json.faithful_text.proper_nullable (fun _ _ => trivial),
    Summary.faithful.list.proper h.summaries, Sample.faithful.list.proper h.telemetry,
    Outcome.faithful.proper_map (fun _ _ => trivial), nofun⟩

theorem membersOf?_toJson (r : NodeRecord) : r.toJson.membersOf? schema = some
    [some (.text r.node), some (Json.nullable Position.toJson r.position),
      some (Json.nullable .text r.uid), some (.array (r.summaries.map Summary.toJson)),
      some (.array (r.telemetry.map Sample.toJson)), r.outcome.map Outcome.toJson] :=
  Json.membersOf?_present
  ⟨rfl, by decide, by simp [schema, Json.Member.required, Json.Member.mayMiss]⟩

/-- A record that is read back has a position with finite coordinates, if it has one. -/
theorem position_of_reads {r r' : NodeRecord} (h : ofJson? r.toJson = some r') :
    ∀ p ∈ r.position, p.Storable := by
  rw [ofJson?, membersOf?_toJson] at h
  simp only [Option.bind_eq_bind, Option.bind_some, Option.bind_eq_some_iff] at h
  obtain ⟨_, -, _, hposition, -⟩ := h
  intro p hp
  obtain ⟨q, hq, -⟩ : ∃ q, Position.ofJson? p.toJson = some q ∧ _ := by
    rw [Option.mem_def.1 hp] at hposition
    exact Option.map_eq_some_iff.1 hposition
  exact Position.storable_of_reads hq

theorem faithful : Faithful Storable toJson ofJson? where
  proper h := proper_toJson h.toReported
  ne_null _ := nofun
  reads {r} h := by
    rw [ofJson?, membersOf?_toJson]
    simp only [Option.bind_eq_bind, Option.bind_some, Option.pure_def, Json.orElse,
      Json.faithful_text.need trivial, Position.faithful.nullable h.position,
      Json.faithful_text.nullable (fun _ _ => trivial), Summary.faithful.list.reads h.summaries,
      Sample.faithful.list.reads h.telemetry, Outcome.faithful.maybe (fun _ _ => trivial)]
  admits h := by
    obtain ⟨members, -, h⟩ := Option.bind_eq_some_iff.1 h
    split at h
    · simp only [Option.bind_eq_bind, Option.bind_eq_some_iff, Option.pure_def, Option.some.injEq]
        at h
      obtain ⟨_, -, _, hposition, _, -, _, hsummaries, _, htelemetry, _, -, rfl⟩ := h
      exact ⟨⟨Summary.faithful.list.of_orElse (by simp) hsummaries,
        Sample.faithful.list.of_orElse (by simp) htelemetry⟩, Position.faithful.of_maybe hposition⟩
    · cases h

end NodeRecord

namespace Snapshot

/-- The records are storable. -/
def Storable (s : Snapshot) : Prop := ∀ r ∈ s.nodes, r.Storable

/-- A snapshot has a text, whatever the positions are. -/
theorem proper_toJson {s : Snapshot} (h : ∀ r ∈ s.nodes, r.Reported) : Json.Proper s.toJson := by
  refine Json.proper_obj ?_
  rw [List.forall_mem_singleton]
  refine .array fun j hj => ?_
  obtain ⟨r, hr, rfl⟩ := List.mem_map.1 hj
  exact NodeRecord.proper_toJson (h r hr)

theorem membersOf?_toJson (s : Snapshot) :
    s.toJson.membersOf? schema = some [some (.array (s.nodes.map NodeRecord.toJson))] :=
  Json.membersOf?_obj rfl (by decide)

/-- A snapshot that is read back has finite coordinates only. -/
theorem positions_of_reads {s s' : Snapshot} (h : ofJson? s.toJson = some s') :
    ∀ r ∈ s.nodes, ∀ p ∈ r.position, p.Storable := by
  rw [ofJson?, membersOf?_toJson] at h
  simp only [Option.bind_eq_bind, Option.bind_some, Option.map_eq_some_iff] at h
  obtain ⟨nodes, hnodes, -⟩ := h
  intro r hr
  obtain ⟨r', hread⟩ := (Json.reads_of_toList? hnodes).1 r.toJson (List.mem_map_of_mem hr)
  exact NodeRecord.position_of_reads hread

theorem faithful : Faithful Storable toJson ofJson? where
  proper h := proper_toJson fun r hr => (h r hr).toReported
  ne_null _ := nofun
  reads {s} h := by
    rw [ofJson?, membersOf?_toJson]
    simp only [Option.bind_eq_bind, Option.bind_some, NodeRecord.faithful.list.need h,
      Option.map_some]
  admits h := by
    obtain ⟨members, -, h⟩ := Option.bind_eq_some_iff.1 h
    split at h
    · obtain ⟨nodes, hnodes, rfl⟩ := Option.map_eq_some_iff.1 h
      exact NodeRecord.faithful.list.of_need hnodes
    · cases h

end Snapshot

end ProximityLab
