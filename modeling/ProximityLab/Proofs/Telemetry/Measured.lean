import ProximityLab.Proofs.Telemetry.Grammar

/-!
# What a record measures

An element of a record is measured if its name is that of a quantity (`Element.Known`), at its
offset to the base time of the first element (`Element.Measured`). All sums are exact: a time is
used only if it fits 64 bits.

- **Measurements** (`measurements?_eq_some_iff`): those of the elements of a known name, in their
  order, provided that the times of just these fit. Other elements might as well not be there
  (`measurements?_filter`).
- **Samples** (`ofElements?_measured`): a list of elements is a sample exactly if the first carries
  a tag and all times that are used fit, and the sample is what its elements say.
-/

namespace ProximityLab

theorem Quantity.name_inj {q q' : Quantity} : q.name = q'.name ↔ q = q' := by
  refine ⟨fun h => ?_, congrArg name⟩
  have hq := ofName?_name q
  rw [h, ofName?_name] at hq
  exact (Option.some.inj hq).symm

/-! ## Elements -/

namespace Element

/-- The name is that of a quantity. -/
def Known (e : Element) : Prop := ∃ q : Quantity, e.name = q.name

theorem known_iff {e : Element} : e.Known ↔ (Quantity.ofName? e.name).isSome = true := by
  rw [Option.isSome_iff_exists]
  constructor
  · rintro ⟨q, hname⟩
    exact ⟨q, by rw [hname, Quantity.ofName?_name]⟩
  · rintro ⟨q, hq⟩
    exact ⟨q, Quantity.name_of_ofName? hq⟩

instance : DecidablePred Known := fun _ => decidable_of_iff' _ known_iff

/-- The measurement is what the element says, at its offset to the base time. -/
structure Measured (base : Int) (e : Element) (m : Measurement) : Prop where
  name : e.name = m.quantity.name
  value : m.value = e.value
  unit : m.unit = e.unit
  time : m.time = e.offset.getD 0 + base

theorem Measured.unique {base : Int} {e : Element} {m m' : Measurement} (h : Measured base e m)
    (h' : Measured base e m') : m = m' := by
  obtain ⟨q, value, unit, time⟩ := m
  obtain ⟨q', value', unit', time'⟩ := m'
  obtain ⟨hname, rfl, rfl, rfl⟩ := h
  obtain ⟨hname', rfl, rfl, rfl⟩ := h'
  obtain rfl : q = q' := Quantity.name_inj.1 (hname.symm.trans hname')
  rfl

theorem measured_of_measure? {base : Int} {e : Element} {q : Quantity} {m : Measurement}
    (hname : e.name = q.name) (h : e.measure? base q = some m) : Measured base e m := by
  obtain ⟨time, htime, rfl⟩ := Option.map_eq_some_iff.1 h
  refine ⟨hname, rfl, rfl, ?_⟩
  unfold addTimes? at htime
  split at htime
  · exact (Option.some.inj htime).symm
  · cases htime

/-- The value of the first element of a name. -/
def valueOf? (name : String) (es : List Element) : Option Binary64 :=
  (es.find? (·.name = name)).map (·.value)

end Element

/-! ## Measurements -/

namespace Sample

open Element (Known Measured valueOf?)

variable {base : Int} {es : List Element} {ms : List Measurement}

/-- What is measured is measured on the elements of a known name, in their order. -/
theorem measured_of_measurements? (h : measurements? base es = some ms) :
    List.Forall₂ (Measured base) (es.filter Known) ms := by
  induction es generalizing ms with
  | nil =>
    cases h
    exact .nil
  | cons e es ih =>
    rw [measurements?] at h
    cases hq : Quantity.ofName? e.name with
    | none =>
      have hunknown : ¬ e.Known := by simp [Element.known_iff, hq]
      rw [hq] at h
      rw [List.filter_cons_of_neg (by simpa using hunknown)]
      exact ih h
    | some q =>
      have hknown : e.Known := by simp [Element.known_iff, hq]
      simp only [hq, Option.bind_eq_bind, Option.bind_eq_some_iff, Option.pure_def,
        Option.some.injEq] at h
      obtain ⟨m, hm, rest, hrest, rfl⟩ := h
      rw [List.filter_cons_of_pos (by simpa using hknown)]
      exact .cons (Element.measured_of_measure? (Quantity.name_of_ofName? hq) hm) (ih hrest)

/-- The elements of a known name are measured if their times fit 64 bits. -/
theorem measurements?_eq_some_iff : measurements? base es = some ms ↔
    (∀ e ∈ es, e.Known → Int64Range (e.offset.getD 0 + base)) ∧
      List.Forall₂ (Measured base) (es.filter Known) ms := by
  constructor
  · intro h
    exact ⟨exists_measurements?_iff.1 ⟨ms, h⟩, measured_of_measurements? h⟩
  · rintro ⟨hrange, hmeasured⟩
    obtain ⟨ms', hms'⟩ := exists_measurements?_iff.2 hrange
    have hunique : Relator.RightUnique (Measured base) := fun _ _ _ => Measured.unique
    rw [hms', hunique.forall₂ (measured_of_measurements? hms') hmeasured]

/-- Elements of other names might as well not be there. -/
theorem measurements?_filter (base : Int) (es : List Element) :
    measurements? base (es.filter Known) = measurements? base es := by
  induction es with
  | nil => rfl
  | cons e es ih =>
    cases hq : Quantity.ofName? e.name with
    | none =>
      rw [List.filter_cons_of_neg (by simp [Element.known_iff, hq]), ih, measurements?, hq]
    | some q =>
      rw [List.filter_cons_of_pos (by simp [Element.known_iff, hq]), measurements?, measurements?,
        ih]

/-- The value of a quantity is on an element of a known name. -/
theorem valueOf?_filter (q : Quantity) (es : List Element) :
    valueOf? q.name (es.filter Known) = valueOf? q.name es := by
  rw [valueOf?, valueOf?, List.find?_filter]
  congr 2
  funext e
  by_cases hname : e.name = q.name
  · have hknown : e.Known := ⟨q, hname⟩
    simp [hname, hknown]
  · simp [hname]

/-- The first measurement of a quantity is that of the first element of its name. -/
theorem find?_measured (h : List.Forall₂ (Measured base) es ms) (q : Quantity) :
    (ms.find? (·.quantity = q)).map (·.value) = valueOf? q.name es := by
  induction h with
  | nil => rfl
  | @cons e m es ms hm _ ih =>
    have hsame : e.name = q.name ↔ m.quantity = q := by rw [hm.name, Quantity.name_inj]
    by_cases hq : m.quantity = q
    · simp [valueOf?, hq, hsame.2 hq, hm.value]
    · have hname := mt hsame.1 hq
      simpa [valueOf?, hq, hname] using ih

/-! ## Samples -/

/-- The sample is what the elements say, under the tag of the first. -/
structure Reports (s : Sample) (tag : Tag) (first : Element) (rest : List Element) : Prop where
  radio : s.radio = tag.radio
  neighbor : s.neighbor = tag.neighbor
  node : s.node = tag.node
  subsystem : s.subsystem = tag.subsystem
  time : s.time = first.offset.getD 0 + first.base.getD 0
  measurements : List.Forall₂ (Measured (first.base.getD 0)) ((first :: rest).filter Known)
    s.measurements

theorem ofElements?_cons_iff {first : Element} {rest : List Element} {s : Sample} :
    ofElements? (first :: rest) = some s ↔
      ∃ tag, first.tag.bind Tag.parse? = some tag ∧ Timely first rest ∧
      s.Reports tag first rest := by
  simp only [ofElements?, addTimes?, Option.bind_eq_bind, Option.bind_eq_some_iff, Option.pure_def,
    Option.some.injEq, Option.ite_none_right_eq_some, measurements?_eq_some_iff]
  constructor
  · rintro ⟨text, htag, tag, hparse, ms, ⟨hmeasured, hms⟩, time, ⟨hbegins, rfl⟩, rfl⟩
    exact ⟨tag, ⟨text, htag, hparse⟩, ⟨hbegins, hmeasured⟩, rfl, rfl, rfl, rfl, rfl, hms⟩
  · rintro ⟨tag, ⟨text, htag, hparse⟩, ⟨hbegins, hmeasured⟩, hs⟩
    obtain ⟨radio, neighbor, node, subsystem, time, ms⟩ := s
    obtain ⟨rfl, rfl, rfl, rfl, rfl, hms⟩ := hs
    exact ⟨text, htag, tag, hparse, ms, ⟨hmeasured, hms⟩, _, ⟨hbegins, rfl⟩, rfl⟩

/-- The value of a quantity is that of the first element of its name. -/
theorem Reports.value?_eq {s : Sample} {tag : Tag} {first : Element} {rest : List Element}
    (h : s.Reports tag first rest) (q : Quantity) :
    s.value? q = valueOf? q.name (first :: rest) := by
  rw [← valueOf?_filter]
  exact find?_measured h.measurements q

/-- Behind the first, elements of other names might as well not be there. -/
theorem ofElements?_filter (first : Element) (rest : List Element) :
    ofElements? (first :: rest.filter Known) = ofElements? (first :: rest) := by
  have hmeasurements : ∀ base,
      measurements? base (first :: rest.filter Known) = measurements? base (first :: rest) := by
    intro base
    rw [← measurements?_filter, ← measurements?_filter base (first :: rest)]
    by_cases hfirst : first.Known <;> simp [hfirst]
  simp only [ofElements?, hmeasurements]

/-- A list of elements is a sample exactly if there is a first that carries a tag, and the time of
the first and those of all elements of a known name fit 64 bits. The sample is what the elements
say: the measurements are those of the elements of a known name, in their order and at the exact
times, and the first of a name gives the value of its quantity. Behind the first, elements of other
names might as well not be there. -/
theorem ofElements?_measured :
    (∀ es s, ofElements? es = some s ↔
      ∃ first rest tag, es = first :: rest ∧ first.tag.bind Tag.parse? = some tag ∧
      Timely first rest ∧ s.Reports tag first rest) ∧
    (∀ es s, ofElements? es = some s →
      s.rssi? = valueOf? "rssi" es ∧ s.distance? = valueOf? "d_cm" es ∧
      s.lineOfSight? = valueOf? "los" es) ∧
    ∀ first rest, ofElements? (first :: rest.filter Known) = ofElements? (first :: rest) := by
  have hiff : ∀ es s, ofElements? es = some s ↔ ∃ first rest tag, es = first :: rest ∧
      first.tag.bind Tag.parse? = some tag ∧ Timely first rest ∧ s.Reports tag first rest := by
    intro es s
    cases es with
    | nil => exact ⟨nofun, nofun⟩
    | cons first rest =>
      rw [ofElements?_cons_iff]
      constructor
      · rintro ⟨tag, hrecord⟩
        exact ⟨first, rest, tag, rfl, hrecord⟩
      · rintro ⟨_, _, tag, ⟨⟩, hrecord⟩
        exact ⟨tag, hrecord⟩
  refine ⟨hiff, fun es s h => ?_, ofElements?_filter⟩
  obtain ⟨first, rest, tag, rfl, -, -, hs⟩ := (hiff es s).1 h
  exact ⟨hs.value?_eq .rssi, hs.value?_eq .distance, hs.value?_eq .lineOfSight⟩

/-- The last element that is measured falls on the last moment of 64 bits. The temperature would
fall beyond it and does not count; a second distance there would. -/
theorem ofElements?_measured_lastMoment :
    let distance : Element :=
      ⟨some "DWABCD:pepper:uwb:8fd6", "d_cm", .ofInt 218, "cm", some 0x7ffffffffffffffa, none⟩
    let temperature : Element := ⟨none, "temp", .ofInt 21, "C", some 0, some 6⟩
    let sight : Element := ⟨none, "los", .ofInt 100, "%", none, some 5⟩
    let s : Sample := ⟨.uwb, "8fd6", some "DWABCD", "pepper", 0x7ffffffffffffffa,
      [⟨.distance, .ofInt 218, "cm", 0x7ffffffffffffffa⟩,
        ⟨.lineOfSight, .ofInt 100, "%", 0x7fffffffffffffff⟩]⟩
    ofElements? [distance, temperature, sight] = some s ∧ s.lineOfSight? = some (.ofInt 100) ∧
      ofElements? [distance, sight, { temperature with name := "d_cm" }] = none := by
  intro distance temperature sight s
  have hs : ofElements? [distance, temperature, sight] = some s := by decide +kernel
  have hvalues := ofElements?_measured.2.1 _ s hs
  refine ⟨hs, hvalues.2.2, ?_⟩
  rw [Option.eq_none_iff_forall_ne_some]
  intro s' hs'
  obtain ⟨first, rest, tag, heq, -, htimely, -⟩ := (ofElements?_measured.1 _ s').1 hs'
  cases heq
  have hlate := htimely.measured { temperature with name := "d_cm" } (by simp) ⟨.distance, rfl⟩
  revert hlate
  decide

end Sample

end ProximityLab
