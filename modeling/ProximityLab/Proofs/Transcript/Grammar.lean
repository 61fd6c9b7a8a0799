import ProximityLab.Proofs.Telemetry.Grammar
import ProximityLab.Transcript

/-!
# Which lines are records

- **Summaries** (`Summary.Written`): a summary is an object with an epoch and a list of encounters,
  each in an object of its own (`Summary.Named`). Any of these objects may also be the list of its
  members (`Summary.Listed`), which no device prints.
- **Lines** (`classifyLine_grammar`): exactly the telemetry records are found as telemetry, a
  summary only where there is none, and nothing on any other line.
-/

namespace ProximityLab

namespace Summary

open Json (IsText OrNull Holds MayHold)

/-- The value is this natural number, of 64 bits. -/
def IsNat64 (j : Json) (n : Nat) : Prop :=
  ∃ m, j = .number m ∧ m.toInt? = some (n : Int) ∧ n < 0x10000000000000000

/-- An entry of the list of encounters: an object that holds an encounter as an object. -/
def IsEntry (j : Json) : Prop := ∃ entry pet, j = .object entry ∧ (some "pet", .object pet) ∈ entry

/-- The document is an object with an epoch and a list of encounters. -/
def Named (j : Json) : Prop :=
  ∃ members pets, j = .object members ∧ Holds members "epoch" (fun e => ∃ n, IsNat64 e n) ∧
    (some "pets", .array pets) ∈ members ∧ ∀ p ∈ pets, IsEntry p

/-- The value is written for a summary with these entries: as an object, or as the list of its
members. Its label is a text or null, or an object has none, its epoch is a natural number of 64
bits, and each entry is read as an encounter. -/
inductive Written : Json → List Json → Prop where
  | object {members : List (Option String × Json)} {text : Option String} {pets : List Json}
      (hlabel : MayHold members "tag" IsText text)
      (hepoch : Holds members "epoch" fun e => ∃ n, IsNat64 e n)
      (hpets : (some "pets", .array pets) ∈ members)
      (hread : ∀ p ∈ pets, ∃ e, Encounter.ofJson? p = some e) : Written (.object members) pets
  | list {label epoch : Json} {text : Option String} {n : Nat} {pets : List Json}
      (hlabel : OrNull IsText label text) (hepoch : IsNat64 epoch n)
      (hread : ∀ p ∈ pets, ∃ e, Encounter.ofJson? p = some e) :
      Written (.array [label, epoch, .array pets]) pets

/-- The summary, an entry of it or an encounter is a list. -/
inductive HasList : Json → List Json → Prop where
  | summary {items pets : List Json} : HasList (.array items) pets
  | entry {j : Json} {pets items : List Json} (hentry : .array items ∈ pets) : HasList j pets
  | encounter {j : Json} {pets : List Json} {entry : List (Option String × Json)}
      {items : List Json} (hentry : .object entry ∈ pets)
      (hpet : (some "pet", .array items) ∈ entry) : HasList j pets

/-- The value is written for a summary, with the list of its members in the place of an object. -/
def Listed (j : Json) : Prop := ∃ pets, Written j pets ∧ HasList j pets

theorem isNat64_of_toNat? {j : Json} {n : Nat} (h : j.toNat? 64 = some n) : IsNat64 j n := by
  obtain ⟨i, hi, rfl⟩ := Option.map_eq_some_iff.1 h
  cases j with
  | number m =>
    obtain ⟨hm, hrange⟩ := Option.filter_eq_some_iff.1 hi
    obtain ⟨hlow, hhigh⟩ := of_decide_eq_true hrange
    have hbound : i < 0x10000000000000000 := Int.lt_of_le_of_lt hhigh (by decide)
    refine ⟨m, rfl, ?_, by omega⟩
    rw [hm, Int.toNat_of_nonneg hlow]
  | _ => cases hi

/-- An entry that is read holds an encounter as an object, unless there is a list in the place of
one of the two. -/
theorem entry_cases {j : Json} {e : Encounter} (h : Encounter.ofJson? j = some e) :
    IsEntry j ∨ (∃ items, j = .array items) ∨
      ∃ entry items, j = .object entry ∧ (some "pet", .array items) ∈ entry := by
  obtain ⟨members, hmembers, h⟩ := Option.bind_eq_some_iff.1 h
  split at h
  · rename_i pet
    cases j with
    | array items => exact .inr (.inl ⟨items, rfl⟩)
    | object entry =>
      cases pet with
      | none => cases h
      | some pet =>
        have hpet? : Encounter.ofPet? pet = some e := h
        obtain ⟨values, hvalues, -⟩ := Option.bind_eq_some_iff.1 hpet?
        have hall :=
          Json.gives_of_objectMembers? (show Json.objectMembers? _ entry = _ from hmembers)
        obtain ⟨hpet, -⟩ := List.forall₂_cons.1 hall
        have hmem : (some "pet", pet) ∈ entry := (hpet pet).1 rfl
        cases pet with
        | object inner => exact .inl ⟨entry, inner, rfl, hmem⟩
        | array items => exact .inr (.inr ⟨entry, items, rfl, hmem⟩)
        | _ => cases hvalues
    | _ => cases hmembers
  · cases h

/-- What is read as a summary is written for one. -/
theorem written_of_ofJson? {j : Json} {s : Summary} (h : ofJson? j = some s) :
    ∃ pets, Written j pets := by
  obtain ⟨members, hmembers, h⟩ := Option.bind_eq_some_iff.1 h
  split at h
  · rename_i label epoch pets
    simp only [Option.bind_eq_bind, Option.bind_eq_some_iff, Option.pure_def, Option.some.injEq]
      at h
    obtain ⟨text, hlabel, n, hepoch, encounters, hpets, -⟩ := h
    obtain ⟨pets, rfl, hpets⟩ := Json.array_of_need hpets
    have hread := (Json.reads_of_toList? hpets).1
    have htext : ∀ (j : Json) s, j.toText? = some s ↔ IsText j s := fun _ _ =>
      Json.toText?_eq_some_iff
    have hnull : ∀ s, ¬ IsText .null s := nofun
    refine ⟨pets, ?_⟩
    cases j with
    | array items =>
      match items with
      | [label, epoch, .array pets] =>
        cases hmembers
        exact .list ((Json.maybe_some_iff (htext label) hnull).1 hlabel)
          (isNat64_of_toNat? hepoch) hread
      | [_, _, .null] | [_, _, .bool _] | [_, _, .number _] | [_, _, .string _]
      | [_, _, .object _] => cases hmembers
      | [] | [_] | [_, _] | _ :: _ :: _ :: _ :: _ => cases hmembers
    | object members =>
      have hall :=
        Json.gives_of_objectMembers? (show Json.objectMembers? _ members = _ from hmembers)
      simp only [schema, List.forall₂_cons] at hall
      obtain ⟨hlabels, hepochs, hlist, -⟩ := hall
      cases epoch with
      | none => cases hepoch
      | some epoch =>
        exact .object ((Json.maybe_iff hlabels (fun j _ => htext j) hnull).1 hlabel)
          ⟨epoch, (hepochs epoch).1 rfl, n, isNat64_of_toNat? hepoch⟩ ((hlist _).1 rfl) hread
    | _ => cases hmembers
  · cases h

/-- If nothing in it is a list that should be an object, a summary has its members by their
names. -/
theorem Written.named {j : Json} {pets : List Json} (h : Written j pets) (hno : ¬ HasList j pets) :
    Named j := by
  cases h with
  | @object members _ _ _ hepoch hpets hread =>
    refine ⟨members, pets, rfl, hepoch, hpets, fun p hp => ?_⟩
    obtain ⟨e, he⟩ := hread p hp
    rcases entry_cases he with hentry | ⟨items, rfl⟩ | ⟨entry, items, rfl, hpet⟩
    · exact hentry
    · exact absurd (.entry hp) hno
    · exact absurd (.encounter hp hpet) hno
  | list => exact absurd .summary hno

/-- What is read as a summary is one, unless there is a list in the place of one of its objects. -/
theorem named_or_listed {j : Json} {s : Summary} (h : ofJson? j = some s) : Named j ∨ Listed j := by
  obtain ⟨pets, hwritten⟩ := written_of_ofJson? h
  by_cases hlist : HasList j pets
  · exact .inr ⟨pets, hwritten, hlist⟩
  · exact .inl (hwritten.named hlist)

end Summary

/-! ## Lines -/

/-- The line is one document and nothing else, and is read as this value: numbers are finite,
nesting is bounded, and of the members with one name the last one counts. -/
def IsValue (line : String) (v : Json) : Prop :=
  (Json.read? (Text.trim line)).bind Json.settle? = some v

/-- The line is a telemetry record, and its elements are objects. -/
def IsTelemetry (line : String) : Prop := ∃ v, IsValue line v ∧ Sample.Recorded Element.InObject v

/-- The line is a telemetry record with an element that is the list of its members. -/
def IsListedTelemetry (line : String) : Prop :=
  ∃ v, IsValue line v ∧ Sample.Recorded Element.Written v ∧ Sample.HasList v

/-- The line is an epoch summary, and all in it are objects. -/
def IsSummary (line : String) : Prop := ∃ j, Json.read? (Text.trim line) = some j ∧ Summary.Named j

/-- The line is an epoch summary with a list in the place of an object. -/
def IsListedSummary (line : String) : Prop :=
  ∃ j, Json.read? (Text.trim line) = some j ∧ Summary.Listed j

theorem exists_read?_iff {line : String} :
    (∃ s, Sample.read? (Text.trim line) = some s) ↔ IsTelemetry line ∨ IsListedTelemetry line := by
  have hread : (∃ s, Sample.read? (Text.trim line) = some s) ↔
      ∃ v, IsValue line v ∧ Sample.Recorded Element.Written v := by
    simp only [Sample.read?, IsValue, Option.bind_eq_bind, Option.bind_eq_some_iff]
    constructor
    · rintro ⟨s, j, hj, hs⟩
      obtain ⟨v, hv, hrecord⟩ := Sample.exists_ofDocument?_iff.1 ⟨s, hs⟩
      exact ⟨v, ⟨j, hj, hv⟩, hrecord⟩
    · rintro ⟨v, ⟨j, hj, hv⟩, hrecord⟩
      obtain ⟨s, hs⟩ := Sample.exists_ofDocument?_iff.2 ⟨v, hv, hrecord⟩
      exact ⟨s, j, hj, hs⟩
  rw [hread, IsTelemetry, IsListedTelemetry, ← exists_or]
  refine exists_congr fun v => ?_
  rw [← and_or_left, ← Sample.recorded_written_iff]

/-- An empty line needs no case of its own, since it is no document. -/
theorem classifyLine_eq (line : String) :
    classifyLine line =
      match Sample.read? (Text.trim line) with
      | some s => some (.telemetry s)
      | none => (Summary.read? (Text.trim line)).map .epoch := by
  unfold classifyLine
  dsimp only
  split
  · rename_i hempty
    have hread : Json.read? "" = none := by decide
    rw [String.isEmpty_iff.1 hempty, Sample.read?, Summary.read?, hread]
    rfl
  · cases Sample.read? (Text.trim line) <;> rfl

theorem summary_of_read? {line : String} {s : Summary}
    (h : Summary.read? (Text.trim line) = some s) :
    IsSummary line ∨ IsListedSummary line := by
  rw [Summary.read?, Option.bind_eq_bind, Option.bind_eq_some_iff] at h
  obtain ⟨j, hj, hs⟩ := h
  rcases Summary.named_or_listed hs with hnamed | hlisted
  · exact .inl ⟨j, hj, hnamed⟩
  · exact .inr ⟨j, hj, hlisted⟩

/-- **Which lines are records.** A line is found as telemetry exactly if it is a telemetry record,
and as a summary only if it is a summary and no such record; on any other line nothing is found. In
both, what should be an object may as well be the list of its members, though no device prints
it. -/
theorem classifyLine_grammar (line : String) :
    ((∃ s, classifyLine line = some (.telemetry s)) ↔ IsTelemetry line ∨ IsListedTelemetry line) ∧
      ((∃ s, classifyLine line = some (.epoch s)) →
        ¬ IsTelemetry line ∧ (IsSummary line ∨ IsListedSummary line)) ∧
      (¬ IsTelemetry line → ¬ IsListedTelemetry line → ¬ IsSummary line → ¬ IsListedSummary line →
        classifyLine line = none) := by
  have hread := @exists_read?_iff line
  rw [classifyLine_eq]
  cases htelemetry : Sample.read? (Text.trim line) with
  | some s =>
    have hrecord := hread.1 ⟨s, htelemetry⟩
    refine ⟨⟨fun _ => hrecord, fun _ => ⟨s, rfl⟩⟩, nofun, fun hno hno' => ?_⟩
    exact absurd hrecord (not_or.2 ⟨hno, hno'⟩)
  | none =>
    have hno : ¬ (IsTelemetry line ∨ IsListedTelemetry line) := fun h => by
      obtain ⟨s, hs⟩ := hread.2 h
      rw [htelemetry] at hs
      cases hs
    cases hsummary : Summary.read? (Text.trim line) with
    | some s =>
      have hshape := summary_of_read? hsummary
      refine ⟨⟨nofun, fun h => absurd h hno⟩, fun _ => ⟨fun h => hno (.inl h), hshape⟩,
        fun _ _ hnot hnot' => ?_⟩
      exact absurd hshape (not_or.2 ⟨hnot, hnot'⟩)
    | none => exact ⟨⟨nofun, fun h => absurd h hno⟩, nofun, fun _ _ _ _ => rfl⟩

/-- The list of the members of a summary passes for the summary. -/
example : classifyLine "[\"\",0,[]]" = some (.epoch ⟨some "", 0, []⟩) := by decide +kernel

end ProximityLab
