import ProximityLab.Json.Record
import ProximityLab.Proofs.Json.RoundTrip

/-!
# Records read back from documents

- `membersOf?_present`: the object of a record's members, absent ones left out, is read as these
  members.
- `Faithful P write read`: what satisfies `P` is written as a document that has a text and is read
  back; only what satisfies `P` is read at all.
- `Faithful.need`, `Faithful.maybe`, `Faithful.nullable`, `Faithful.list`: faithful members of a
  record, one for each way in which a record holds a value.
-/

namespace ProximityLab.Json

/-! ## Members -/

/-- The members of an object that hold a value. -/
def entries (members : List (String × Option Json)) : List (Option String × Json) :=
  (present members).map fun m => (some m.1, m.2)

theorem entries_cons (m : String × Option Json) (ms : List (String × Option Json)) :
    entries (m :: ms) = (m.2.map fun j => (some m.1, j)).toList ++ entries ms := by
  obtain ⟨k, v⟩ := m
  cases v <;> rfl

theorem filter_entries_of_not_mem {k : String} {members : List (String × Option Json)}
    (h : k ∉ members.map (·.1)) : (entries members).filter (·.1 == some k) = [] := by
  induction members with
  | nil => rfl
  | cons m ms ih =>
    obtain ⟨hne, hms⟩ := not_or.1 (mt List.mem_cons.2 h)
    obtain ⟨k', v⟩ := m
    rw [entries_cons, List.filter_append, ih hms]
    cases v <;> simp [Ne.symm hne]

theorem lookupOnce?_entries {k : String} {v : Option Json} {members : List (String × Option Json)}
    (hnodup : (members.map (·.1)).Nodup) (h : (k, v) ∈ members) :
    lookupOnce? k (entries members) = some v := by
  induction members with
  | nil => cases h
  | cons m ms ih =>
    obtain ⟨hfresh, hnodup⟩ := List.nodup_cons.1 hnodup
    have hrest := ih hnodup
    unfold lookupOnce? at hrest ⊢
    rw [entries_cons, List.filter_append]
    rcases List.mem_cons.1 h with rfl | h
    · rw [filter_entries_of_not_mem hfresh]
      cases v <;> simp
    · have hne : m.1 ≠ k := by
        rintro rfl
        exact hfresh (List.mem_map_of_mem (f := (·.1)) h)
      have hnone : ((m.2.map fun j => (some m.1, j)).toList.filter (·.1 == some k)) = [] := by
        cases m.2 <;> simp [hne]
      rw [hnone, List.nil_append]
      exact hrest h

/-- The members of a record: one for each of its schema, in its order, none missing that has to be
there. -/
structure Fits (schema : List Member) (members : List (String × Option Json)) : Prop where
  names : schema.map (·.name) = members.map (·.1)
  distinct : (schema.map (·.name)).Nodup
  required : ∀ p ∈ schema.zip members, p.1.optional = false → p.2.2.isSome

theorem objectMembers?_entries {schema : List Member} {members : List (String × Option Json)}
    (h : Fits schema members) :
    objectMembers? schema (entries members) = some (members.map (·.2)) := by
  obtain ⟨hnames, hdistinct, hrequired⟩ := h
  rw [hnames] at hdistinct
  have hlookup : ∀ m ∈ members, lookupOnce? m.1 (entries members) = some m.2 :=
    fun m hm => lookupOnce?_entries hdistinct hm
  have hsome : (entries members).all (·.1.isSome) = true := by simp [entries]
  rw [objectMembers?, if_pos hsome]
  -- The object stays as it is while schema and members get shorter.
  generalize entries members = all at hlookup
  clear hdistinct hsome
  induction schema generalizing members with
  | nil =>
    rw [List.map_nil, List.nil_eq, List.map_eq_nil_iff] at hnames
    rw [hnames]
    rfl
  | cons m schema ih =>
    obtain ⟨p, ms, rfl⟩ : ∃ p ms, members = p :: ms := by
      cases members with
      | nil => cases hnames
      | cons p ms => exact ⟨p, ms, rfl⟩
    simp only [List.map_cons, List.cons.injEq, List.zip_cons_cons, List.forall_mem_cons]
      at hnames hrequired hlookup
    have htail := ih hnames.2 hrequired.2 hlookup.2
    rw [List.mapM_cons, htail, hnames.1, hlookup.1]
    cases hp : p.2 with
    | some j => simp [hp]
    | none =>
      have hoptional : m.optional = true := by
        by_contra hreq
        have := hrequired.1 (Bool.eq_false_iff.2 hreq)
        rw [hp] at this
        cases this
      simp [hp, hoptional]

/-- The object of a record's members is read as these members. -/
theorem membersOf?_present {schema : List Member} {members : List (String × Option Json)}
    (h : Fits schema members) :
    (obj (present members)).membersOf? schema = some (members.map (·.2)) :=
  objectMembers?_entries h

theorem proper_present {members : List (String × Option Json)}
    (h : ∀ m ∈ members, ∀ j ∈ m.2, Proper j) :
    Proper (obj (present members)) := by
  refine .object ?_ ?_
  · intro m hm
    obtain ⟨p, -, rfl⟩ := List.mem_map.1 hm
    rfl
  · intro m hm
    obtain ⟨p, hp, rfl⟩ := List.mem_map.1 hm
    obtain ⟨q, hq, hpq⟩ := List.mem_filterMap.1 hp
    obtain ⟨j, hj, rfl⟩ := Option.map_eq_some_iff.1 hpq
    exact h q hq j hj

theorem present_map_some (members : List (String × Json)) :
    present (members.map fun m => (m.1, some m.2)) = members := by
  rw [present, List.filterMap_map]
  exact List.filterMap_some

/-- The object of a record that always has all its members is read as these members. -/
theorem membersOf?_obj {schema : List Member} {members : List (String × Json)}
    (hnames : schema.map (·.name) = members.map (·.1)) (hdistinct : (schema.map (·.name)).Nodup) :
    (obj members).membersOf? schema = some (members.map fun m => some m.2) := by
  have hfits : Fits schema (members.map fun m => (m.1, some m.2)) := by
    refine ⟨by simpa [Function.comp_def] using hnames, hdistinct, fun p hp _ => ?_⟩
    obtain ⟨m, -, hm⟩ := List.mem_map.1 (List.of_mem_zip hp).2
    rw [← hm]
    rfl
  have hread := membersOf?_present hfits
  rwa [present_map_some, List.map_map] at hread

theorem proper_obj {members : List (String × Json)} (h : ∀ m ∈ members, Proper m.2) :
    Proper (obj members) := by
  rw [← present_map_some members]
  refine proper_present fun m hm j hj => ?_
  obtain ⟨p, hp, rfl⟩ := List.mem_map.1 hm
  cases hj
  exact h p hp

/-! ## Members of a kind -/

/-- A way to write and to read the values of a type. What satisfies `P` has a text and is read back,
and is not taken for a missing value; nothing else is read. -/
structure Faithful {α : Type} (P : α → Prop) (write : α → Json) (read : Json → Option α) :
    Prop where
  proper : ∀ {a}, P a → Proper (write a)
  ne_null : ∀ {a}, P a → write a ≠ .null
  reads : ∀ {a}, P a → read (write a) = some a
  admits : ∀ {j a}, read j = some a → P a

theorem faithful_text : Faithful (fun _ => True) text toText? where
  proper _ := .string _
  ne_null _ := nofun
  reads _ := rfl
  admits _ := trivial

theorem faithful_int (lo hi : Int) : Faithful (fun i => lo ≤ i ∧ i ≤ hi) int (toInt? lo hi) where
  proper _ := .number (Numeral.proper_ofInt _)
  ne_null _ := nofun
  reads h := by simpa [toInt?, int, Numeral.toInt?_ofInt] using h
  admits {j i} h := by
    cases j <;> simp only [toInt?, reduceCtorEq, Option.filter_eq_some_iff, decide_eq_true_eq] at h
    exact h.2

theorem faithful_nat (width : Nat) : Faithful (· < 2 ^ width) nat (toNat? width) where
  proper _ := .number (Numeral.proper_ofNat _)
  ne_null _ := nofun
  reads {n} h := by
    have hle : (n : Int) ≤ (Nat.pow 2 width : Nat) - 1 := by
      have : n < Nat.pow 2 width := h
      omega
    have hread : toInt? 0 ((Nat.pow 2 width : Nat) - 1) (nat n) = some (n : Int) := by
      simp only [toInt?, nat, Numeral.toInt?_ofNat, Option.filter_some, Int.natCast_nonneg, hle,
        and_self, decide_true, if_true]
    rw [toNat?, hread]
    rfl
  admits {j n} h := by
    obtain ⟨i, hi, rfl⟩ := Option.map_eq_some_iff.1 h
    have hrange := (faithful_int _ _).admits hi
    have hpow : Nat.pow 2 width = 2 ^ width := rfl
    have : 0 < 2 ^ width := Nat.two_pow_pos width
    omega

/-- A number that is not finite is null, so that each has a text. -/
theorem proper_float (x : Binary64) : Proper (float x) := by
  unfold float
  split
  · rename_i h
    exact .number (FloatStyle.proper_numeral (k := 1) rfl h)
  · exact .null

theorem faithful_float : Faithful (fun x => x.isFinite = true) float toFinite? where
  proper {x} _ := proper_float x
  ne_null h := by
    rw [float, if_pos h]
    nofun
  reads h := by
    rw [float, if_pos h, toFinite?, Numeral.toFinite?, FloatStyle.toBinary64_numeral (k := 1) rfl h]
    exact if_pos h
  admits {j x} h := by
    cases j <;> simp only [toFinite?, Numeral.toFinite?, reduceCtorEq] at h
    split at h
    · cases h
      assumption
    · cases h

/-- A number that is read back is finite. -/
theorem isFinite_of_toFinite?_float {x y : Binary64} (h : toFinite? (float x) = some y) :
    x.isFinite = true := by
  unfold float at h
  split at h
  · assumption
  · cases h

/-- A choice among names is faithful where each name stands for what it names. -/
theorem faithful_choice {α : Type} {name : α → String} {ofName? : String → Option α}
    (h : ∀ a, ofName? (name a) = some a) :
    Faithful (fun _ => True) (fun a => text (name a)) (choice? ofName?) where
  proper _ := .string _
  ne_null _ := nofun
  reads _ := h _
  admits _ := trivial

section Combine

variable {α : Type} {P : α → Prop} {write : α → Json} {read : Json → Option α}

/-- A list that is read is an array. -/
theorem array_of_need {v : Option Json} {l : List α} (h : Json.need (toList? read) v = some l) :
    ∃ items, v = some (.array items) ∧ toList? read (.array items) = some l := by
  match v with
  | some (.array items) => exact ⟨items, rfl, h⟩

/-- In a list that is read each item is read, and nothing else comes of it. -/
theorem reads_of_toList? {items : List Json} {l : List α}
    (h : toList? read (.array items) = some l) :
    (∀ j ∈ items, ∃ a, read j = some a) ∧ ∀ a ∈ l, ∃ j, read j = some a := by
  change items.mapM read = some l at h
  induction items generalizing l with
  | nil =>
    cases h
    simp
  | cons j items ih =>
    rw [List.mapM_cons] at h
    obtain ⟨a, ha, h⟩ := Option.bind_eq_some_iff.1 h
    obtain ⟨as, has, h⟩ := Option.bind_eq_some_iff.1 h
    cases h
    obtain ⟨hitems, hl⟩ := ih has
    exact ⟨List.forall_mem_cons.2 ⟨⟨a, ha⟩, hitems⟩, List.forall_mem_cons.2 ⟨⟨j, ha⟩, hl⟩⟩

theorem Faithful.list (h : Faithful P write read) :
    Faithful (fun l => ∀ a ∈ l, P a) (fun l => .array (l.map write)) (toList? read) where
  proper hl := .array fun j hj => by
    obtain ⟨a, ha, rfl⟩ := List.mem_map.1 hj
    exact h.proper (hl a ha)
  ne_null _ := nofun
  reads {l} hl := by
    show (l.map write).mapM read = some l
    induction l with
    | nil => rfl
    | cons a l ih =>
      obtain ⟨ha, hl⟩ := List.forall_mem_cons.1 hl
      rw [List.map_cons, List.mapM_cons, h.reads ha, ih hl]
      rfl
  admits {j l} hl := by
    cases j <;> try cases hl
    intro a ha
    obtain ⟨j, hj⟩ := (reads_of_toList? hl).2 a ha
    exact h.admits hj

theorem Faithful.need (h : Faithful P write read) {a : α} (ha : P a) :
    need read (some (write a)) = some a := h.reads ha

theorem Faithful.of_need (h : Faithful P write read) {v : Option Json} {a : α}
    (ha : Json.need read v = some a) :
    P a := by
  cases v with
  | none => cases ha
  | some j => exact h.admits ha

/-- A value that may be absent is left out when it is. -/
theorem Faithful.maybe (h : Faithful P write read) {o : Option α} (ho : ∀ a ∈ o, P a) :
    maybe read (o.map write) = some o := by
  cases o with
  | none => rfl
  | some a =>
    have hnull := h.ne_null (ho a rfl)
    have hread := h.reads (ho a rfl)
    rw [Option.map_some]
    generalize write a = j at hnull hread
    cases j <;> first | exact absurd rfl hnull | simp [Json.maybe, hread]

/-- A value that may be absent is null when it is. -/
theorem Faithful.nullable (h : Faithful P write read) {o : Option α} (ho : ∀ a ∈ o, P a) :
    Json.maybe read (some (nullable write o)) = some o := by
  cases o with
  | none => rfl
  | some a => exact h.maybe ho

theorem Faithful.of_maybe (h : Faithful P write read) {v : Option Json} {o : Option α}
    (ho : Json.maybe read v = some o) : ∀ a ∈ o, P a := by
  unfold Json.maybe at ho
  split at ho
  · cases ho
    exact fun _ => nofun
  · cases ho
    exact fun _ => nofun
  · obtain ⟨a, ha, rfl⟩ := Option.map_eq_some_iff.1 ho
    intro b hb
    cases hb
    exact h.admits ha

theorem Faithful.of_orElse (h : Faithful P write read) {default a : α} (hdefault : P default)
    {v : Option Json} (ha : orElse read default v = some a) : P a := by
  cases v with
  | none =>
    cases ha
    exact hdefault
  | some j => exact h.admits ha

theorem Faithful.proper_map (h : Faithful P write read) {o : Option α} (ho : ∀ a ∈ o, P a) :
    ∀ j ∈ o.map write, Proper j := by
  intro j hj
  obtain ⟨a, ha, rfl⟩ := Option.map_eq_some_iff.1 hj
  exact h.proper (ho a ha)

theorem Faithful.proper_nullable (h : Faithful P write read) {o : Option α} (ho : ∀ a ∈ o, P a) :
    Proper (Json.nullable write o) := by
  cases o with
  | none => exact .null
  | some a => exact h.proper (ho a rfl)

end Combine

end ProximityLab.Json
