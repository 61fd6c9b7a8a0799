import ProximityLab.Proofs.Json.Value
import ProximityLab.Proofs.Telemetry.Sample
import ProximityLab.Proofs.Telemetry.Tag
import Mathlib.Data.List.Forall2

/-!
# What is a telemetry record

- **Elements** (`Element.Named`, `Element.Listed`): an element is an object that has its members by
  their names. It is also read from the list of its members in their order, which no device prints.
- **Records** (`Sample.Recorded`): one element, or a list of them, whose first carries the tag and
  whose times fit 64 bits. `Sample.exists_ofDocument?_iff`: exactly these values are samples.
-/

namespace ProximityLab

namespace Json

/-! ## Values -/

/-- The value is this text. -/
def IsText (j : Json) (s : String) : Prop := j = .string (some s)

/-- The value is a number, and this is the nearest double. -/
def IsNumber (j : Json) (x : Binary64) : Prop := ∃ n, j = .number n ∧ n.toBinary64 = x

/-- The value is this integer, of 64 bits. -/
def IsInt64 (j : Json) (i : Int) : Prop := ∃ n, j = .number n ∧ n.toInt? = some i ∧ Int64Range i

/-- The value is null, or it is what is given. -/
def OrNull {α : Type} (is : Json → α → Prop) (j : Json) : Option α → Prop
  | some a => is j a
  | none => j = .null

/-- The object has a member of this name with such a value. -/
def Holds (members : List (Option String × Json)) (name : String) (P : Json → Prop) : Prop :=
  ∃ j, (some name, j) ∈ members ∧ P j

/-- The object has a member of this name that is what is given or null, or it has none, and nothing
is given. -/
def MayHold {α : Type} (members : List (Option String × Json)) (name : String)
    (is : Json → α → Prop) (o : Option α) : Prop :=
  Holds members name (OrNull is · o) ∨ o = none ∧ ∀ j, (some name, j) ∉ members

theorem toText?_eq_some_iff {j : Json} {s : String} : j.toText? = some s ↔ IsText j s := by
  cases j <;> simp [toText?, IsText]

theorem toFinite?_eq_some_iff {j : Json} (hj : Settled j) {x : Binary64} :
    j.toFinite? = some x ↔ IsNumber j x := by
  cases j with
  | number n => simp [toFinite?, Numeral.toFinite?, IsNumber, hj.finite]
  | _ => simp [toFinite?, IsNumber]

theorem toInt64?_eq_some_iff {j : Json} {i : Int} : j.toInt64? = some i ↔ IsInt64 j i := by
  have hrange : (-0x8000000000000000 ≤ i ∧ i ≤ 0x7fffffffffffffff) ↔ Int64Range i := by
    unfold Int64Range
    omega
  cases j with
  | number n =>
    simp only [toInt64?, toInt?, IsInt64, Option.filter_eq_some_iff, decide_eq_true_eq, hrange]
    simp
  | _ => simp [toInt64?, toInt?, IsInt64]

section Reading

variable {α : Type} {is : Json → α → Prop} {read : Json → Option α}

theorem maybe_some_iff {j : Json} (hread : ∀ a, read j = some a ↔ is j a)
    (hnull : ∀ a, ¬ is .null a) {o : Option α} :
    maybe read (some j) = some o ↔ OrNull is j o := by
  cases j with
  | null =>
    cases o with
    | none => simp [maybe, OrNull]
    | some a => simp [maybe, OrNull, hnull]
  | _ =>
    cases o with
    | none => simp [maybe, OrNull]
    | some a => simp [maybe, OrNull, hread]

variable {members : List (Option String × Json)} {name : String} {o : Option Json}

/-- A member that has to be there is what the object holds under the name. -/
theorem need_iff (h : Gives members name o)
    (hread : ∀ j, (some name, j) ∈ members → ∀ a, read j = some a ↔ is j a) {a : α} :
    need read o = some a ↔ Holds members name (is · a) := by
  cases o with
  | none =>
    refine ⟨nofun, fun ⟨j, hj, _⟩ => ?_⟩
    cases (h j).2 hj
  | some j =>
    have hj := (h j).1 rfl
    refine (hread j hj a).trans ⟨fun his => ⟨j, hj, his⟩, fun ⟨j', hj', his⟩ => ?_⟩
    obtain rfl := Option.some.inj ((h j').2 hj')
    exact his

/-- A member that may be missing is what the object may hold under the name. -/
theorem maybe_iff (h : Gives members name o)
    (hread : ∀ j, (some name, j) ∈ members → ∀ a, read j = some a ↔ is j a)
    (hnull : ∀ a, ¬ is .null a) {x : Option α} :
    maybe read o = some x ↔ MayHold members name is x := by
  cases o with
  | none =>
    have hmissing : ∀ j, (some name, j) ∉ members := fun j hj => by cases (h j).2 hj
    constructor
    · rintro ⟨⟩
      exact .inr ⟨rfl, hmissing⟩
    · rintro (⟨j, hj, -⟩ | ⟨rfl, -⟩)
      · exact absurd hj (hmissing j)
      · rfl
  | some j =>
    have hj := (h j).1 rfl
    rw [maybe_some_iff (hread j hj) hnull]
    refine ⟨fun hor => .inl ⟨j, hj, hor⟩, ?_⟩
    rintro (⟨j', hj', hor⟩ | ⟨-, hmissing⟩)
    · obtain rfl := Option.some.inj ((h j').2 hj')
      exact hor
    · exact absurd hj (hmissing j)

end Reading

end Json

/-! ## Elements -/

namespace Element

open Json (Settled IsText IsNumber IsInt64 OrNull Holds MayHold)

/-- The object has the members of the element by their names. -/
structure Named (members : List (Option String × Json)) (e : Element) : Prop where
  tag : MayHold members "bn" IsText e.tag
  name : Holds members "n" (IsText · e.name)
  value : Holds members "v" (IsNumber · e.value)
  unit : Holds members "u" (IsText · e.unit)
  base : MayHold members "bt" IsInt64 e.base
  offset : MayHold members "t" IsInt64 e.offset

/-- The value is an object that has the members of the element by their names. -/
def InObject (j : Json) (e : Element) : Prop := ∃ members, j = .object members ∧ Named members e

/-- The times at the end of a list of members: none, the base time, or both. -/
inductive Times : List Json → Option Int → Option Int → Prop where
  | none : Times [] none none
  | base {bt : Json} {base : Option Int} (hbase : OrNull IsInt64 bt base) : Times [bt] base none
  | both {bt t : Json} {base offset : Option Int} (hbase : OrNull IsInt64 bt base)
      (hoffset : OrNull IsInt64 t offset) : Times [bt, t] base offset

/-- The list has the members of the element in their order. -/
inductive Listed : List Json → Element → Prop where
  | intro {bn n v u : Json} {times : List Json} {e : Element} (htag : OrNull IsText bn e.tag)
      (hname : IsText n e.name) (hvalue : IsNumber v e.value) (hunit : IsText u e.unit)
      (htimes : Times times e.base e.offset) : Listed (bn :: n :: v :: u :: times) e

/-- The value is written for the element: as an object, or as a list. -/
inductive Written : Json → Element → Prop where
  | object {members : List (Option String × Json)} {e : Element} (h : Named members e) :
      Written (.object members) e
  | list {items : List Json} {e : Element} (h : Listed items e) : Written (.array items) e

/-- An element is read from its six members. -/
theorem ofJson?_eq_some_iff {j : Json} {e : Element} :
    ofJson? j = some e ↔ ∃ bn n v u bt t, j.membersOf? schema = some [bn, n, v, u, bt, t] ∧
      Json.maybe Json.toText? bn = some e.tag ∧ Json.need Json.toText? n = some e.name ∧
      Json.need Json.toFinite? v = some e.value ∧ Json.need Json.toText? u = some e.unit ∧
      Json.maybe Json.toInt64? bt = some e.base ∧ Json.maybe Json.toInt64? t = some e.offset := by
  constructor
  · intro h
    obtain ⟨members, hmembers, h⟩ := Option.bind_eq_some_iff.1 h
    split at h
    · simp only [Option.bind_eq_bind, Option.bind_eq_some_iff, Option.pure_def, Option.some.injEq]
        at h
      obtain ⟨_, htag, _, hname, _, hvalue, _, hunit, _, hbase, _, hoffset, rfl⟩ := h
      exact ⟨_, _, _, _, _, _, hmembers, htag, hname, hvalue, hunit, hbase, hoffset⟩
    · cases h
  · rintro ⟨bn, n, v, u, bt, t, hmembers, htag, hname, hvalue, hunit, hbase, hoffset⟩
    rw [ofJson?, hmembers]
    simp only [Option.bind_eq_bind, Option.bind_some, htag, hname, hvalue, hunit, hbase, hoffset,
      Option.pure_def]

/-- In an object, an element has its members by their names. -/
theorem ofJson?_object_iff {members : List (Option String × Json)} (h : Settled (.object members))
    {e : Element} :
    ofJson? (.object members) = some e ↔ Named members e := by
  obtain ⟨hdistinct, hsettled⟩ := h.members
  have htext : ∀ {name : String} (j : Json), (some name, j) ∈ members → ∀ s, j.toText? = some s ↔
      IsText j s :=
    fun _ _ _ => Json.toText?_eq_some_iff
  have hnumber : ∀ {name : String} (j : Json), (some name, j) ∈ members →
      ∀ x, j.toFinite? = some x ↔ IsNumber j x :=
    fun _ hj _ => Json.toFinite?_eq_some_iff (hsettled _ hj)
  have htime : ∀ {name : String} (j : Json), (some name, j) ∈ members → ∀ i, j.toInt64? = some i ↔
      IsInt64 j i :=
    fun _ _ _ => Json.toInt64?_eq_some_iff
  have hnotext : ∀ s, ¬ IsText .null s := nofun
  have hnotime : ∀ i, ¬ IsInt64 .null i := nofun
  rw [ofJson?_eq_some_iff]
  simp only [Json.membersOf?, Json.objectMembers?_eq_some_iff hdistinct, schema, List.forall₂_cons,
    List.forall₂_nil_left_iff, Json.Member.mayMiss, Json.Member.required]
  constructor
  · rintro ⟨bn, n, v, u, bt, t, ⟨⟨hbn, -⟩, ⟨hn, -⟩, ⟨hv, -⟩, ⟨hu, -⟩, ⟨hbt, -⟩, ⟨ht, -⟩, -⟩, htag,
      hname, hvalue, hunit, hbase, hoffset⟩
    exact ⟨(Json.maybe_iff hbn htext hnotext).1 htag, (Json.need_iff hn htext).1 hname,
      (Json.need_iff hv hnumber).1 hvalue, (Json.need_iff hu htext).1 hunit,
      (Json.maybe_iff hbt htime hnotime).1 hbase, (Json.maybe_iff ht htime hnotime).1 hoffset⟩
  · rintro ⟨htag, hname, hvalue, hunit, hbase, hoffset⟩
    have hgives : ∀ name, ∃ o, Json.Gives members name o := fun name =>
      (Json.exists_lookupOnce? hdistinct name).imp fun _ => And.right
    obtain ⟨bn, hbn⟩ := hgives "bn"
    obtain ⟨n, hn⟩ := hgives "n"
    obtain ⟨v, hv⟩ := hgives "v"
    obtain ⟨u, hu⟩ := hgives "u"
    obtain ⟨bt, hbt⟩ := hgives "bt"
    obtain ⟨t, ht⟩ := hgives "t"
    have hname := (Json.need_iff hn htext).2 hname
    have hvalue := (Json.need_iff hv hnumber).2 hvalue
    have hunit := (Json.need_iff hu htext).2 hunit
    have hthere : ∀ {α : Type} {read : Json → Option α} {o : Option Json} {a : α},
        Json.need read o = some a → (o = none → false = true) := by
      rintro α read o a ha rfl
      cases ha
    have htag := (Json.maybe_iff hbn htext hnotext).2 htag
    have hbase := (Json.maybe_iff hbt htime hnotime).2 hbase
    have hoffset := (Json.maybe_iff ht htime hnotime).2 hoffset
    refine ⟨bn, n, v, u, bt, t, ?_, htag, hname, hvalue, hunit, hbase, hoffset⟩
    exact ⟨⟨hbn, fun _ => trivial⟩, ⟨hn, hthere hname⟩, ⟨hv, hthere hvalue⟩, ⟨hu, hthere hunit⟩,
      ⟨hbt, fun _ => trivial⟩, ⟨ht, fun _ => trivial⟩, trivial⟩

/-- In a list, an element has its members in their order. -/
theorem ofJson?_array_iff {items : List Json} (h : Settled (.array items)) {e : Element} :
    ofJson? (.array items) = some e ↔ Listed items e := by
  have hsettled := h.items
  have htext : ∀ j o, Json.maybe Json.toText? (some j) = some o ↔ OrNull IsText j o := fun j _ =>
    Json.maybe_some_iff (fun _ => Json.toText?_eq_some_iff) nofun
  have htime : ∀ j o, Json.maybe Json.toInt64? (some j) = some o ↔ OrNull IsInt64 j o := fun j _ =>
    Json.maybe_some_iff (fun _ => Json.toInt64?_eq_some_iff) nofun
  have hnumber : ∀ j ∈ items, ∀ x, Json.need Json.toFinite? (some j) = some x ↔ IsNumber j x :=
    fun j hj _ =>
      Json.toFinite?_eq_some_iff (hsettled j hj)
  have hneed : ∀ j s, Json.need Json.toText? (some j) = some s ↔ IsText j s :=
    fun j _ => Json.toText?_eq_some_iff
  obtain ⟨tag, name, value, unit, base, offset⟩ := e
  rw [ofJson?_eq_some_iff]
  constructor
  · rintro ⟨bn, n, v, u, bt, t, hmembers, htag, hname, hvalue, hunit, hbase, hoffset⟩
    match items with
    | [] | [_] | [_, _] | [_, _, _] | _ :: _ :: _ :: _ :: _ :: _ :: _ :: _ => cases hmembers
    | [bn, n, v, u] =>
      cases hmembers
      cases hbase
      cases hoffset
      exact ⟨(htext _ _).1 htag, (hneed _ _).1 hname, (hnumber v (by simp) _).1 hvalue,
        (hneed _ _).1 hunit, .none⟩
    | [bn, n, v, u, bt] =>
      cases hmembers
      cases hoffset
      exact ⟨(htext _ _).1 htag, (hneed _ _).1 hname, (hnumber v (by simp) _).1 hvalue,
        (hneed _ _).1 hunit, .base ((htime _ _).1 hbase)⟩
    | [bn, n, v, u, bt, t] =>
      cases hmembers
      exact ⟨(htext _ _).1 htag, (hneed _ _).1 hname, (hnumber v (by simp) _).1 hvalue,
        (hneed _ _).1 hunit, .both ((htime _ _).1 hbase) ((htime _ _).1 hoffset)⟩
  · rintro ⟨htag, hname, hvalue, hunit, htimes⟩
    have htag := (htext _ _).2 htag
    have hname := (hneed _ _).2 hname
    have hvalue := (hnumber _ (by simp) _).2 hvalue
    have hunit := (hneed _ _).2 hunit
    cases htimes with
    | none => exact ⟨_, _, _, _, _, _, rfl, htag, hname, hvalue, hunit, rfl, rfl⟩
    | base hbase =>
      exact ⟨_, _, _, _, _, _, rfl, htag, hname, hvalue, hunit, (htime _ _).2 hbase, rfl⟩
    | both hbase hoffset =>
      exact ⟨_, _, _, _, _, _, rfl, htag, hname, hvalue, hunit, (htime _ _).2 hbase,
        (htime _ _).2 hoffset⟩

/-- An element is read from what is written for it. -/
theorem ofJson?_iff_written {j : Json} (h : Settled j) {e : Element} :
    ofJson? j = some e ↔ Written j e := by
  cases j with
  | object members =>
    rw [ofJson?_object_iff h]
    exact ⟨.object, fun | .object h => h⟩
  | array items =>
    rw [ofJson?_array_iff h]
    exact ⟨.list, fun | .list h => h⟩
  | null | bool _ | number _ | string _ => exact ⟨nofun, nofun⟩

end Element

/-! ## Records -/

namespace Quantity

theorem name_of_ofName? {s : String} {q : Quantity} (h : ofName? s = some q) : s = q.name := by
  unfold ofName? at h
  split at h
  · cases h; assumption
  · split at h
    · cases h; assumption
    · split at h
      · cases h; assumption
      · cases h

end Quantity

theorem exists_addTimes?_iff {a b : Int} :
    (∃ time, addTimes? a b = some time) ↔ Int64Range (a + b) := by
  unfold addTimes?
  split
  · rename_i h
    exact ⟨fun _ => h, fun _ => ⟨_, rfl⟩⟩
  · rename_i h
    exact ⟨nofun, fun h' => absurd h' h⟩

namespace Sample

/-- The times that a record uses fit 64 bits: that of the first element, and those of the elements
of a known name. -/
structure Timely (first : Element) (rest : List Element) : Prop where
  begins : Int64Range (first.offset.getD 0 + first.base.getD 0)
  measured : ∀ e ∈ first :: rest, (∃ q : Quantity, e.name = q.name) →
    Int64Range (e.offset.getD 0 + first.base.getD 0)

/-- The value is a record whose elements are written in some way: one element, or a list of them
that is not empty. The first carries a tag, and the times fit. -/
def Recorded (Written : Json → Element → Prop) (v : Json) : Prop :=
  ∃ items first rest, ∃ tag : Tag,
    (v = .array items ∨ items = [v] ∧ ∃ members, v = .object members) ∧
    List.Forall₂ Written items (first :: rest) ∧ first.tag = some tag.text ∧ tag.Proper ∧
    Timely first rest

theorem exists_measurements?_iff {base : Int} {es : List Element} :
    (∃ ms, measurements? base es = some ms) ↔
      ∀ e ∈ es, (∃ q : Quantity, e.name = q.name) → Int64Range (e.offset.getD 0 + base) := by
  induction es with
  | nil => exact ⟨nofun, fun _ => ⟨[], rfl⟩⟩
  | cons e es ih =>
    rw [measurements?, List.forall_mem_cons, ← ih]
    cases hq : Quantity.ofName? e.name with
    | none =>
      have hunknown : ¬ ∃ q : Quantity, e.name = q.name := by
        rintro ⟨q, hname⟩
        rw [hname, Quantity.ofName?_name] at hq
        cases hq
      exact ⟨fun h => ⟨fun hknown => absurd hknown hunknown, h⟩, And.right⟩
    | some q =>
      have hname := Quantity.name_of_ofName? hq
      simp only [Element.measure?, Option.bind_eq_bind, Option.bind_eq_some_iff,
        Option.map_eq_some_iff, Option.pure_def, Option.some.injEq]
      constructor
      · rintro ⟨_, _, ⟨time, htime, rfl⟩, ms, hms, rfl⟩
        exact ⟨fun _ => exists_addTimes?_iff.1 ⟨time, htime⟩, ms, hms⟩
      · rintro ⟨hrange, ms, hms⟩
        obtain ⟨time, htime⟩ := exists_addTimes?_iff.2 (hrange ⟨q, hname⟩)
        exact ⟨_, _, ⟨time, htime, rfl⟩, ms, hms, rfl⟩

/-- A list of elements is a sample if its first carries a tag and the times fit. -/
theorem exists_ofElements?_iff {es : List Element} :
    (∃ s, ofElements? es = some s) ↔
      ∃ first rest, ∃ tag : Tag, es = first :: rest ∧ first.tag = some tag.text ∧ tag.Proper ∧
      Timely first rest := by
  cases es with
  | nil => exact ⟨nofun, nofun⟩
  | cons first rest =>
    simp only [ofElements?, Option.bind_eq_bind, Option.bind_eq_some_iff, Option.pure_def,
      Option.some.injEq]
    constructor
    · rintro ⟨_, text, htag, tag, hparse, ms, hms, time, htime, -⟩
      obtain ⟨hproper, rfl⟩ := Tag.parse?_eq_some_iff.1 hparse
      exact ⟨first, rest, tag, rfl, htag, hproper, exists_addTimes?_iff.1 ⟨time, htime⟩,
        exists_measurements?_iff.1 ⟨ms, hms⟩⟩
    · rintro ⟨_, _, tag, ⟨⟩, htag, hproper, htime, hmeasured⟩
      obtain ⟨time, htime⟩ := exists_addTimes?_iff.2 htime
      obtain ⟨ms, hms⟩ := exists_measurements?_iff.2 hmeasured
      exact ⟨_, _, htag, tag, Tag.parse?_eq_some_iff.2 ⟨hproper, rfl⟩, ms, hms, time, htime, rfl⟩

/-- Values are read as the elements that are written by them. -/
theorem mapM_ofJson?_iff {items : List Json} (h : ∀ v ∈ items, Json.Settled v) {es : List Element} :
    items.mapM Element.ofJson? = some es ↔ List.Forall₂ Element.Written items es := by
  rw [mapM_eq_some_iff]
  constructor
  · intro hread
    exact ((List.forall₂_and_left _ _).2 ⟨h, hread⟩).imp fun v e hv =>
      (Element.ofJson?_iff_written hv.1).1 hv.2
  · intro hwritten
    exact ((List.forall₂_and_left _ _).2 ⟨h, hwritten⟩).imp fun v e hv =>
      (Element.ofJson?_iff_written hv.1).2 hv.2

/-- Exactly the values that are records are samples. -/
theorem exists_ofDocument?_iff {j : Json} :
    (∃ s, ofDocument? j = some s) ↔ ∃ v, j.settle? = some v ∧ Recorded Element.Written v := by
  have hitems : ∀ {items : List Json}, (∀ v ∈ items, Json.Settled v) →
      ((∃ s, (items.mapM Element.ofJson?).bind ofElements? = some s) ↔
        ∃ first rest, ∃ tag : Tag, List.Forall₂ Element.Written items (first :: rest) ∧
          first.tag = some tag.text ∧ tag.Proper ∧ Timely first rest) := by
    intro items hsettled
    constructor
    · rintro ⟨s, h⟩
      obtain ⟨es, hes, hs⟩ := Option.bind_eq_some_iff.1 h
      obtain ⟨first, rest, tag, rfl, hrecord⟩ := exists_ofElements?_iff.1 ⟨s, hs⟩
      exact ⟨first, rest, tag, (mapM_ofJson?_iff hsettled).1 hes, hrecord⟩
    · rintro ⟨first, rest, tag, hes, hrecord⟩
      obtain ⟨s, hs⟩ := exists_ofElements?_iff.2 ⟨first, rest, tag, rfl, hrecord⟩
      exact ⟨s, by rw [(mapM_ofJson?_iff hsettled).2 hes]; exact hs⟩
  have hone : ∀ v : Json, ([v].mapM Element.ofJson?).bind ofElements? =
      (Element.ofJson? v).bind fun e => ofElements? [e] := fun v => by
    cases h : Element.ofJson? v <;> simp [h]
  constructor
  · rintro ⟨s, h⟩
    obtain ⟨v, hv, h⟩ := Option.bind_eq_some_iff.1 h
    have hsettled := Json.settled_of_settle? hv
    cases v with
    | array items =>
      obtain ⟨first, rest, tag, hrecord⟩ := (hitems hsettled.items).1 ⟨s, h⟩
      exact ⟨_, hv, items, first, rest, tag, .inl rfl, hrecord⟩
    | object members =>
      obtain ⟨first, rest, tag, hrecord⟩ :=
        (hitems (List.forall_mem_singleton.2 hsettled)).1 ⟨s, (hone _).trans h⟩
      exact ⟨_, hv, _, first, rest, tag, .inr ⟨rfl, members, rfl⟩, hrecord⟩
    | null | bool _ | number _ | string _ => cases h
  · rintro ⟨v, hv, items, first, rest, tag, hform, hrecord⟩
    have hsettled := Json.settled_of_settle? hv
    rcases hform with rfl | ⟨rfl, members, rfl⟩
    · obtain ⟨s, hs⟩ := (hitems hsettled.items).2 ⟨first, rest, tag, hrecord⟩
      exact ⟨s, Option.bind_eq_some_iff.2 ⟨_, hv, hs⟩⟩
    · obtain ⟨s, hs⟩ :=
        (hitems (List.forall_mem_singleton.2 hsettled)).2 ⟨first, rest, tag, hrecord⟩
      exact ⟨s, Option.bind_eq_some_iff.2 ⟨_, hv, (hone _).symm.trans hs⟩⟩

/-- A list stands among the items of the value. -/
def HasList (v : Json) : Prop := ∃ items inner, v = .array items ∧ .array inner ∈ items

/-- If no element is a list, all of them are objects. -/
theorem recorded_written_iff {v : Json} :
    Recorded Element.Written v ↔
      Recorded Element.InObject v ∨ Recorded Element.Written v ∧ HasList v := by
  constructor
  · intro h
    by_cases hlist : HasList v
    · exact .inr ⟨h, hlist⟩
    · obtain ⟨items, first, rest, tag, hform, hes, hrecord⟩ := h
      have hobjects : ∀ j ∈ items, ∀ inner, j ≠ .array inner := by
        rintro j hj inner rfl
        rcases hform with rfl | ⟨rfl, members, rfl⟩
        · exact hlist ⟨items, inner, rfl, hj⟩
        · cases List.mem_singleton.1 hj
      refine .inl ⟨items, first, rest, tag, hform, ?_, hrecord⟩
      refine ((List.forall₂_and_left _ _).2 ⟨hobjects, hes⟩).imp fun j e ⟨hj, hwritten⟩ => ?_
      cases hwritten with
      | object h => exact ⟨_, rfl, h⟩
      | list h => exact absurd rfl (hj _)
  · rintro (⟨items, first, rest, tag, hform, hes, hrecord⟩ | ⟨h, -⟩)
    · refine ⟨items, first, rest, tag, hform, hes.imp fun j e => ?_, hrecord⟩
      rintro ⟨members, rfl, h⟩
      exact .object h
    · exact h

end Sample

end ProximityLab
