import ProximityLab.Json.Record
import ProximityLab.Proofs.Lists
import Mathlib.Data.List.Nodup

/-!
# Documents as values

- **Settled documents** (`Json.Settled`): what a document is read as. Numbers are finite, and an
  object has each name once (`Settled.members`), all of them names of the document
  (`exists_object_of_settle?`).
- **Members** (`objectMembers?_eq_some_iff`): in an object of distinct names, a record has what
  stands under its names.
-/

namespace ProximityLab.Json

/-! ## Settled documents -/

/-- The document is what some document is read as. -/
def Settled (v : Json) : Prop := ∃ room j, settleWithin? room j = some v

/-- Each member has a name of its own. -/
structure Distinct (members : List (Option String × Json)) : Prop where
  named : ∀ m ∈ members, m.1.isSome = true
  nodup : (members.map (·.1)).Nodup

theorem settled_of_settle? {j v : Json} (h : j.settle? = some v) : Settled v := ⟨_, j, h⟩

theorem Distinct.putLast {members : List (Option String × Json)} (h : Distinct members) (k : String)
    (v : Json) :
    Distinct (putLast k v members) := by
  have hsub : (members.filter fun m => m.1 != some k).Sublist members := List.filter_sublist
  refine ⟨fun m hm => ?_, ?_⟩
  · rcases List.mem_append.1 hm with hm | hm
    · exact h.named m (hsub.mem hm)
    · rw [List.mem_singleton.1 hm]
      rfl
  · rw [Json.putLast, List.map_append]
    refine List.nodup_append.2 ⟨h.nodup.sublist (hsub.map _), List.nodup_singleton _, ?_⟩
    rintro _ hname _ hk rfl
    obtain ⟨m, hm, hmk⟩ := List.mem_map.1 hname
    rw [List.map_singleton, List.mem_singleton, ← hmk] at hk
    simpa [hk] using List.of_mem_filter hm

theorem settled_of_settleItems? {room : Nat} {items values : List Json}
    (h : settleItems? room items = some values) :
    ∀ v ∈ values, Settled v := by
  induction items generalizing values with
  | nil =>
    cases h
    nofun
  | cons j items ih =>
    simp only [settleItems?, Option.bind_eq_bind, Option.bind_eq_some_iff, Option.pure_def,
      Option.some.injEq] at h
    obtain ⟨v, hv, rest, hrest, rfl⟩ := h
    exact List.forall_mem_cons.2 ⟨⟨room, j, hv⟩, ih hrest⟩

theorem settled_of_settleMembers? {room : Nat} {members seen values : List (Option String × Json)}
    (h : settleMembers? room seen members = some values) (hseen : Distinct seen)
    (hs : ∀ m ∈ seen, Settled m.2) :
    Distinct values ∧ ∀ m ∈ values, Settled m.2 := by
  induction members generalizing seen with
  | nil =>
    obtain rfl := Option.some.inj h
    exact ⟨hseen, hs⟩
  | cons m members ih =>
    obtain ⟨k, j⟩ := m
    simp only [settleMembers?, Option.bind_eq_bind, Option.bind_eq_some_iff] at h
    obtain ⟨k, -, v, hv, h⟩ := h
    refine ih h (hseen.putLast k v) fun m hm => ?_
    rcases List.mem_append.1 hm with hm | hm
    · exact hs m (List.mem_of_mem_filter hm)
    · rw [List.mem_singleton.1 hm]
      exact ⟨room, j, hv⟩

theorem Settled.items {items : List Json} (h : Settled (.array items)) :
    ∀ v ∈ items, Settled v := by
  obtain ⟨room, j, h⟩ := h
  cases j with
  | array js =>
    cases room with
    | zero => simp [settleWithin?] at h
    | succ room =>
      rw [settleWithin?] at h
      obtain ⟨values, hvalues, heq⟩ := Option.map_eq_some_iff.1 h
      obtain rfl := Json.array.inj heq
      exact settled_of_settleItems? hvalues
  | object ms => cases room <;> simp [settleWithin?] at h
  | null | bool b | number n | string t => simp [settleWithin?] at h

theorem Settled.members {members : List (Option String × Json)} (h : Settled (.object members)) :
    Distinct members ∧ ∀ m ∈ members, Settled m.2 := by
  obtain ⟨room, j, h⟩ := h
  cases j with
  | object ms =>
    cases room with
    | zero => simp [settleWithin?] at h
    | succ room =>
      rw [settleWithin?] at h
      obtain ⟨values, hvalues, heq⟩ := Option.map_eq_some_iff.1 h
      obtain rfl := Json.object.inj heq
      exact settled_of_settleMembers? hvalues ⟨nofun, .nil⟩ nofun
  | array js => cases room <;> simp [settleWithin?] at h
  | null | bool b | number n | string t => simp [settleWithin?] at h

theorem Settled.finite {n : Numeral} (h : Settled (.number n)) : n.toBinary64.isFinite = true := by
  obtain ⟨room, j, h⟩ := h
  cases j with
  | number m =>
    rw [settleWithin?] at h
    split at h
    · rename_i hfinite
      obtain rfl := Json.number.inj (Option.some.inj h)
      exact hfinite
    · cases h
  | array js | object ms => cases room <;> simp [settleWithin?] at h
  | null | bool b | string t => simp [settleWithin?] at h

/-- No name comes up that was not there. -/
theorem name_mem_of_settleMembers? {room : Nat} {members seen values : List (Option String × Json)}
    (h : settleMembers? room seen members = some values) :
    ∀ m ∈ values, m.1 ∈ (seen ++ members).map (·.1) := by
  induction members generalizing seen with
  | nil =>
    obtain rfl := Option.some.inj h
    intro m hm
    simpa using ⟨m.2, hm⟩
  | cons m members ih =>
    obtain ⟨k, j⟩ := m
    simp only [settleMembers?, Option.bind_eq_bind, Option.bind_eq_some_iff] at h
    obtain ⟨k, rfl, v, -, h⟩ := h
    intro m hm
    have hname := ih h m hm
    rw [putLast, List.map_append, List.map_append, List.mem_append, List.mem_append] at hname
    rw [List.map_append, List.mem_append, List.map_cons, List.mem_cons]
    rcases hname with (hseen | hnew) | hlater
    · exact .inl ((List.filter_sublist.map _).mem hseen)
    · exact .inr (.inl (by simpa using hnew))
    · exact .inr (.inr hlater)

/-- An object is read as an object of the same names. -/
theorem exists_object_of_settle? {members : List (Option String × Json)} {v : Json}
    (h : (object members).settle? = some v) :
    ∃ values, v = .object values ∧ ∀ m ∈ values, m.1 ∈ members.map (·.1) := by
  rw [settle?, nestingLimit, settleWithin?] at h
  obtain ⟨values, hvalues, rfl⟩ := Option.map_eq_some_iff.1 h
  exact ⟨values, rfl, name_mem_of_settleMembers? hvalues⟩

/-! ## Members -/

/-- This is what the object has under the name, if it has anything. -/
def Gives (members : List (Option String × Json)) (name : String) (o : Option Json) : Prop :=
  ∀ j, o = some j ↔ (some name, j) ∈ members

theorem Gives.unique {members : List (Option String × Json)} {name : String} {o o' : Option Json}
    (h : Gives members name o) (h' : Gives members name o') : o = o' :=
  Option.ext fun j => (h j).trans (h' j).symm

/-- What is found under a name is what the object has there. -/
theorem gives_of_lookupOnce? {name : String} {members : List (Option String × Json)}
    {o : Option Json} (h : lookupOnce? name members = some o) : Gives members name o := by
  intro j
  have hmem : (some name, j) ∈ members ↔ (some name, j) ∈ members.filter (·.1 == some name) := by
    simp
  rw [hmem]
  unfold lookupOnce? at h
  split at h
  · rename_i hfilter
    cases h
    simp [hfilter]
  · rename_i m hfilter
    cases h
    have hm : m ∈ members.filter (·.1 == some name) := by simp [hfilter]
    have hname : m.1 = some name := eq_of_beq (List.mem_filter.1 hm).2
    rw [hfilter, List.mem_singleton, Option.some.injEq, Prod.ext_iff, hname]
    exact ⟨fun h => ⟨rfl, h.symm⟩, fun h => h.2.symm⟩
  · cases h

/-- In an object of distinct names, no name is found twice. -/
theorem exists_lookupOnce? {members : List (Option String × Json)} (h : Distinct members)
    (name : String) : ∃ o, lookupOnce? name members = some o ∧ Gives members name o := by
  suffices hsome : ∃ o, lookupOnce? name members = some o from
    hsome.imp fun _ ho => ⟨ho, gives_of_lookupOnce? ho⟩
  unfold lookupOnce?
  have hnodup : ((members.filter (·.1 == some name)).map (·.1)).Nodup :=
    h.nodup.sublist (List.filter_sublist.map _)
  have hname : ∀ m ∈ members.filter (·.1 == some name), m.1 = some name := fun m hm =>
    eq_of_beq (List.mem_filter.1 hm).2
  generalize members.filter (·.1 == some name) = found at hnodup hname
  match found with
  | [] => exact ⟨none, rfl⟩
  | [m] => exact ⟨some m.2, rfl⟩
  | m :: m' :: _ =>
    refine absurd hnodup fun hnodup => ?_
    have heq : m.1 = m'.1 := by rw [hname m (by simp), hname m' (by simp)]
    simp [heq] at hnodup

/-- The members of a record that is given as an object are what the object has under their names. -/
theorem gives_of_objectMembers? {schema : List Member} {members : List (Option String × Json)}
    {values : List (Option Json)} (h : objectMembers? schema members = some values) :
    List.Forall₂ (fun m o => Gives members m.name o) schema values := by
  unfold objectMembers? at h
  split at h
  · refine (mapM_eq_some_iff.1 h).imp fun m o hm => ?_
    obtain ⟨found, hfound, hm⟩ := Option.bind_eq_some_iff.1 hm
    have hgives := gives_of_lookupOnce? hfound
    cases found with
    | some j =>
      cases hm
      exact hgives
    | none =>
      dsimp only at hm
      split at hm <;> cases hm
      exact hgives
  · cases h

/-- The members of a record, in an object of distinct names: what the object has under each of the
names. -/
theorem objectMembers?_eq_some_iff {schema : List Member} {members : List (Option String × Json)}
    (h : Distinct members) {values : List (Option Json)} :
    objectMembers? schema members = some values ↔
      List.Forall₂ (fun m o => Gives members m.name o ∧ (o = none → m.optional = true)) schema
      values := by
  rw [objectMembers?, if_pos (List.all_eq_true.2 h.named), mapM_eq_some_iff]
  constructor
  · refine fun hall => hall.imp fun m o hm => ?_
    obtain ⟨found, hfound, hgives⟩ := exists_lookupOnce? h m.name
    have hgives : Gives members m.name found := hgives
    rw [hfound, Option.bind_eq_bind, Option.bind_some] at hm
    cases found with
    | some j =>
      cases hm
      exact ⟨hgives, by simp⟩
    | none =>
      dsimp only at hm
      split at hm
      · rename_i hoptional
        cases hm
        exact ⟨hgives, fun _ => hoptional⟩
      · cases hm
  · refine fun hall => hall.imp fun m o hm => ?_
    obtain ⟨found, hfound, hgives⟩ := exists_lookupOnce? h m.name
    obtain rfl := hm.1.unique (show Gives members m.name found from hgives)
    rw [hfound, Option.bind_eq_bind, Option.bind_some]
    cases o with
    | some j => rfl
    | none => exact if_pos (hm.2 rfl)

end ProximityLab.Json
