import ProximityLab.Environment.Boards
import ProximityLab.Proofs.Lists
import ProximityLab.Proofs.Yaml.Value

/-!
# Variables of boards files

A boards file is read twice here: as it is written (`Boards.value?`), and as the environments that
it gives.

- **Entries** (`Boards.rel_value?`): an environment has the variables that its entry writes, under
  `env` or on its own, and no others. The value is the text of the last scalar under the name.
- **Whole numbers** (`Environment.ofBoards?_whole`): digits are kept as they are up to 63 bits.
  Beyond, the number is read as a double, and its digits are those of that double.
-/

namespace ProximityLab

open Yaml (Value)
open Yaml.Node (EntryDenotes)

/-! ## Variables of a list -/

/-- The last entry of a name counts. -/
theorem Variables.get?_ofList (es : List (String × String)) (name : String) :
    (ofList es).get? name = (es.filter (·.1 == name)).getLast?.map (·.2) := by
  induction es using List.reverseRecOn with
  | nil => rfl
  | append_singleton es e ih =>
    have hset : ofList (es ++ [e]) = (ofList es).set e.1 e.2 := List.foldl_concat ..
    rw [hset, List.filter_append]
    by_cases he : e.1 = name
    · subst he
      simp
    · rw [get?_set_of_ne _ (Ne.symm he), ih]
      simp [he]

/-! ## Entries as they are written -/

namespace Boards

/-- The entries that stand under `env`, if this entry has that name and a mapping. -/
def writtenUnderEnv? (e : Yaml.Node × Yaml.Node) : Option (List (Yaml.Node × Yaml.Node)) :=
  if e.1.scalar?.bind entryMember? = some .env then e.2.entries? else none

/-- The variables that an entry writes: those under `env` if a mapping stands there, else its own
entries. -/
def assignments (entry : Yaml.Node) : List (Yaml.Node × Yaml.Node) :=
  ((entry.entries?.getD []).filterMap writtenUnderEnv?).head?.getD (entry.entries?.getD [])

/-- The text that a key denotes. -/
def name? (key : Yaml.Node) : Option String := key.scalar?.bind Value.text?

/-- What an entry writes for a variable: the last value under its name. -/
def value? (entry : Yaml.Node) (name : String) : Option Yaml.Node :=
  ((assignments entry).filter (name? ·.1 == some name)).getLast?.map (·.2)

/-- The plain scalar that a boards file writes for a variable of its entry at this place. -/
def written? (text : String) (place : Nat) (name : String) : Option String :=
  ((Yaml.Node.listItems text)[place]?.bind (value? · name)).bind Yaml.Node.plain?

end Boards

/-! ## Entries as they are read -/

/-- The entries that stand under `env`, if this entry has that name and a mapping. -/
def underEnv? (e : Value × Value) : Option (List (Value × Value)) :=
  if entryMember? e.1 = some .env then e.2.entries? else none

theorem variablesOf?_eq_some_iff {v : Value} {vars : Variables} :
    variablesOf? v = some vars ↔
      ∃ es ps, v.entries? = some es ∧ es.mapM namedScalar? = some ps ∧ vars = .ofList ps := by
  cases v <;> simp [variablesOf?, Value.entries?, eq_comm]

/-- The values under `env` in an entry whose keys are members. -/
theorem filterMap_underEnv? {own : List (Value × Value)} {members : List (EntryMember × Value)}
    (h : own.mapM (fun e => (entryMember? e.1).map (·, e.2)) = some members) :
    own.filterMap underEnv? = (valuesUnder .env members).filterMap Value.entries? := by
  have hread := mapM_eq_some_iff.1 h
  clear h
  induction hread with
  | nil => rfl
  | @cons e m own members hm _ ih =>
    obtain ⟨k, hk, rfl⟩ := Option.map_eq_some_iff.1 hm
    rw [List.filterMap_cons, ih, underEnv?, hk]
    by_cases henv : k = .env
    · simp [henv, valuesUnder, List.filterMap_cons]
    · simp [henv, valuesUnder]

/-- No mapping stands in an entry that gives variables. -/
theorem filterMap_underEnv?_eq_nil {own : List (Value × Value)} {ps : List (String × String)}
    (h : own.mapM namedScalar? = some ps) : own.filterMap underEnv? = [] := by
  rw [List.filterMap_eq_nil_iff]
  have hread : List.Forall₂ (flip fun e p => namedScalar? e = some p) ps own :=
    (mapM_eq_some_iff.1 h).flip
  refine forall_mem_of_forall₂ (P := fun _ => True) hread (fun _ _ => trivial) fun p e _ he => ?_
  have hscalar : e.2.entries? = none := by
    obtain ⟨k, v⟩ := e
    cases v <;> first | rfl | (cases k <;> exact absurd he nofun)
  simp [underEnv?, hscalar]

theorem of_placedEntry? {v : Value} {e : Environment} (h : placedEntry? v = some e) :
    ∃ own es ps, v.entries? = some own ∧ own.filterMap underEnv? = [es] ∧
      es.mapM namedScalar? = some ps ∧ e.vars = .ofList ps := by
  unfold placedEntry? at h
  split at h
  · rename_i own
    obtain ⟨members, hmembers, h⟩ := Option.bind_eq_some_iff.1 h
    obtain ⟨vars, henv, hvars⟩ : ∃ vars, valuesUnder .env members = [vars] ∧
        variablesOf? vars = some e.vars := by
      split at h
      · rename_i vars henv _
        obtain ⟨w, hw, he⟩ := Option.bind_eq_some_iff.1 h
        cases he
        exact ⟨vars, henv, hw⟩
      · rename_i vars position henv _
        obtain ⟨w, hw, h⟩ := Option.bind_eq_some_iff.1 h
        obtain ⟨place, -, he⟩ := Option.bind_eq_some_iff.1 h
        cases he
        exact ⟨vars, henv, hw⟩
      · exact absurd h nofun
    obtain ⟨es, ps, hes, hps, heq⟩ := variablesOf?_eq_some_iff.1 hvars
    refine ⟨own, es, ps, rfl, ?_, hps, heq⟩
    rw [filterMap_underEnv? hmembers, henv]
    simp [hes]
  · exact absurd h nofun

theorem of_boardEntry? {v : Value} {e : Environment} (h : boardEntry? v = some e) :
    ∃ own ps, v.entries? = some own ∧
      ((own.filterMap underEnv?).head?.getD own).mapM namedScalar? = some ps ∧
      e.vars = .ofList ps := by
  -- Where a mapping stands under `env`, the entry gives no variables of its own: the two forms
  -- exclude each other.
  unfold boardEntry? at h
  split at h
  · rename_i hplaced
    cases h
    obtain ⟨own, es, ps, hown, hes, hps, hvars⟩ := of_placedEntry? hplaced
    refine ⟨own, ps, hown, ?_, hvars⟩
    rw [hes]
    exact hps
  · obtain ⟨vars, hvars, rfl⟩ := Option.map_eq_some_iff.1 h
    obtain ⟨own, ps, hown, hps, hvars⟩ := variablesOf?_eq_some_iff.1 hvars
    refine ⟨own, ps, hown, ?_, hvars⟩
    rw [filterMap_underEnv?_eq_nil hps]
    exact hps

namespace Boards

/-- The entry gives the text of a variable. -/
structure Gives (e : Yaml.Node × Yaml.Node) (p : String × String) : Prop where
  name : name? e.1 = some p.1
  value : ∃ w, e.2.Denotes w ∧ scalarText? w = some p.2

theorem rel_underEnv? {e : Yaml.Node × Yaml.Node} {p : Value × Value} (h : EntryDenotes e p) :
    Option.Rel (List.Forall₂ EntryDenotes) (writtenUnderEnv? e) (underEnv? p) := by
  have hmember : e.1.scalar?.bind entryMember? = entryMember? p.1 :=
    h.1.scalar?_bind (fun _ => rfl) fun _ => rfl
  unfold writtenUnderEnv? underEnv?
  rw [hmember]
  split
  · exact h.2.entries?
  · exact .none

theorem gives_of_entryDenotes {e : Yaml.Node × Yaml.Node} {p : Value × Value}
    {named : String × String} (h : EntryDenotes e p) (hp : namedScalar? p = some named) :
    Gives e named := by
  have hname : name? e.1 = p.1.text? := h.1.scalar?_bind (fun _ => rfl) fun _ => rfl
  obtain ⟨k, v⟩ := p
  cases k with
  | text name =>
    obtain ⟨s, hs, rfl⟩ := Option.map_eq_some_iff.1 hp
    exact ⟨hname, v, h.2, hs⟩
  | _ => exact absurd hp nofun

/-- The assignments of an entry are the variables of its environment. -/
theorem gives_of_boardEntry? {entry : Yaml.Node} {v : Value} {e : Environment}
    (hv : entry.Denotes v) (h : boardEntry? v = some e) :
    ∃ ps, List.Forall₂ Gives (assignments entry) ps ∧ e.vars = .ofList ps := by
  obtain ⟨own, ps, hown, hps, hvars⟩ := of_boardEntry? h
  obtain ⟨written, hentry, hwritten⟩ : ∃ written, entry.entries? = some written ∧
      List.Forall₂ EntryDenotes written own := by
    have hentries := hv.entries?
    rw [hown] at hentries
    generalize entry.entries? = o at hentries
    cases hentries with
    | some hwritten => exact ⟨_, rfl, hwritten⟩
  rw [assignments, hentry, Option.getD_some]
  have hunder := rel_head? (List.rel_filterMap (fun _ _ h => rel_underEnv? h) hwritten)
  refine ⟨ps, forall₂_comp ?_ (mapM_eq_some_iff.1 hps) fun _ _ _ => gives_of_entryDenotes, hvars⟩
  generalize (written.filterMap writtenUnderEnv?).head? = under,
    (own.filterMap underEnv?).head? = under' at hunder
  cases hunder with
  | none => exact hwritten
  | some hunder => exact hunder

/-- An environment has what its entry writes for a variable, as text. -/
theorem rel_value? {entry : Yaml.Node} {v : Value} {e : Environment} (hv : entry.Denotes v)
    (h : boardEntry? v = some e) (name : String) :
    Option.Rel (fun m s => ∃ w, m.Denotes w ∧ scalarText? w = some s) (value? entry name)
      (e.get? name) := by
  obtain ⟨ps, hps, hvars⟩ := gives_of_boardEntry? hv h
  rw [value?, Environment.get?, hvars, Variables.get?_ofList]
  have hlast :=
    rel_getLast? (List.rel_filter (p := (name? ·.1 == some name)) (q := (·.1 == name)) ?_ hps)
  · generalize ((assignments entry).filter _).getLast? = m, (ps.filter _).getLast? = s at hlast
    cases hlast with
    | none => exact .none
    | some hlast => exact .some hlast.value
  · intro e p hgives
    simp [hgives.name]

/-- The environments of a boards file are those of its entries. -/
theorem rel_boardEntry? {text : String} {es : List Environment}
    (h : Environment.ofBoards? text = some es) (place : Nat) :
    Option.Rel (fun entry e => ∃ v, entry.Denotes v ∧ boardEntry? v = some e)
      (Yaml.Node.listItems text)[place]?
      es[place]? := by
  obtain ⟨vs, hvs, hes⟩ := Option.bind_eq_some_iff.1 h
  refine rel_getElem?
    (forall₂_comp (Yaml.Node.denotes_of_readList? hvs) (mapM_eq_some_iff.1 hes) ?_) place
  exact fun entry v e hv he => ⟨v, hv, he⟩

/-! ## Whole numbers -/

/-- The whole number that is kept for one that is written: itself if it has 63 bits or is no finite
double, else the shortest one that is read as the same double. -/
def kept (n : Nat) : Nat :=
  if n < 2 ^ 63 ∨ (Binary64.ofNat n).isFinite = false then n else (Binary64.ofNat n).shortest.whole

theorem kept_of_isFinite {n : Nat} (h : 2 ^ 63 ≤ n) (hfinite : (Binary64.ofNat n).isFinite = true) :
    kept n = (Binary64.ofNat n).shortest.whole :=
  if_neg (not_or.2 ⟨Nat.not_lt.2 h, Bool.not_eq_false _ ▸ hfinite⟩)

theorem kept_eq_self_iff {n : Nat} :
    kept n = n ↔ n < 2 ^ 63 ∨ (Binary64.ofNat n).isFinite = false ∨
      (Binary64.ofNat n).shortest.whole = n := by
  rw [← or_assoc]
  unfold kept
  split
  · rename_i h
    exact iff_of_true rfl (.inl h)
  · rename_i h
    exact (or_iff_right h).symm

theorem integerText_natCast {n : Nat} (h : n < 2 ^ 64) : integerText n = toString (kept n) := by
  unfold integerText
  by_cases hsmall : n < 2 ^ 63
  · rw [if_pos (by omega), kept, if_pos (.inl hsmall)]
    rfl
  · have hlarge : 2 ^ 63 ≤ n := Nat.le_of_not_lt hsmall
    have hlog : n.log2 < 64 := (Nat.log2_lt (by omega)).2 h
    have hfinite : (Binary64.ofNat n).isFinite = true := Binary64.isFinite_ofNat hlarge (by omega)
    have hofInt : Binary64.ofInt n = .ofNat n := by
      rw [Binary64.ofInt, decide_eq_false (by omega)]
      rfl
    rw [if_neg (by omega), hofInt, Binary64.render_ofNat hlarge hfinite,
      kept_of_isFinite hlarge hfinite]

/-- A plain scalar of digits has the digits that are kept as its text. -/
theorem scalarText?_of_ofPlain? {n : Nat} {w : Value} (h : Value.ofPlain? (toString n) = some w) :
    (n < 2 ^ 64 ∨ 2 ^ 128 ≤ n) ∧ scalarText? w = some (toString (kept n)) := by
  rw [Value.ofPlain?_toString] at h
  split at h
  · rename_i hsmall
    cases h
    exact ⟨.inl hsmall, congrArg some (integerText_natCast hsmall)⟩
  · split at h
    · exact absurd h nofun
    · rename_i hlarge
      refine ⟨.inr (Nat.le_of_not_lt hlarge), ?_⟩
      split at h
      · rename_i hfinite
        cases h
        have hlarge : 2 ^ 63 ≤ n := by omega
        rw [kept_of_isFinite hlarge hfinite]
        exact congrArg some (Binary64.render_ofNat hlarge hfinite)
      · rename_i hinfinite
        cases h
        rw [kept, if_pos (.inr (Bool.eq_false_of_not_eq_true hinfinite))]
        rfl

end Boards

/-- **Whole numbers in boards files.** A variable whose value is written as digits has digits in the
environment of its entry, in either form of an entry. They are the same if the number has 63 bits or
is too large for a double, or if it is the shortest decimal of its nearest double. Otherwise they
are those of that decimal, which ends with two zeros and is read as the same double. Numbers between
64 and 128 bits do not occur. -/
theorem Environment.ofBoards?_whole {text : String} {es : List Environment}
    (h : Environment.ofBoards? text = some es) {place : Nat} {name : String} {n : Nat}
    (hwritten : Boards.written? text place name = some (toString n)) :
    (n < 2 ^ 64 ∨ 2 ^ 128 ≤ n) ∧
      ∃ e, es[place]? = some e ∧ e.get? name = some (toString (Boards.kept n)) ∧
        (e.get? name = some (toString n) ↔
          n < 2 ^ 63 ∨ (Binary64.ofNat n).isFinite = false ∨
          (Binary64.ofNat n).shortest.whole = n) ∧
      (2 ^ 63 ≤ n → (Binary64.ofNat n).isFinite = true →
        100 ∣ Boards.kept n ∧ Binary64.ofNat (Boards.kept n) = .ofNat n) := by
  obtain ⟨m, hm, hplain⟩ := Option.bind_eq_some_iff.1 hwritten
  obtain ⟨entry, hentry, hvalue⟩ := Option.bind_eq_some_iff.1 hm
  obtain ⟨e, he, v, hv, hread⟩ := exists_of_rel_some (hentry ▸ Boards.rel_boardEntry? h place)
  obtain ⟨s, hs, w, hw, htext⟩ := exists_of_rel_some (hvalue ▸ Boards.rel_value? hv hread name)
  obtain ⟨hbits, hkept⟩ := Boards.scalarText?_of_ofPlain? (hw.ofPlain? hplain)
  have hget : e.get? name = some (toString (Boards.kept n)) := hs.trans (htext.symm.trans hkept)
  refine ⟨hbits, e, he, hget, ?_, fun hlarge hfinite => ?_⟩
  · rw [hget, Option.some.injEq, Numeral.toString_inj, Boards.kept_eq_self_iff]
  · rw [Boards.kept_of_isFinite hlarge hfinite]
    exact ⟨Binary64.hundred_dvd_whole hlarge hfinite, Binary64.ofNat_whole hlarge hfinite⟩

/-- The serial number of a debug adapter loses its last digits. -/
theorem Environment.ofBoards?_whole_adapter :
    ∃ es e, Environment.ofBoards?
      "- BOARD_INDEX: 3\n- env:\n    DEBUG_ADAPTER_ID: 18446744073709551615\n" = some es ∧
      es[1]? = some e ∧ e.get? "DEBUG_ADAPTER_ID" = some "18446744073709552000" := by
  have hread : (Environment.ofBoards?
      "- BOARD_INDEX: 3\n- env:\n    DEBUG_ADAPTER_ID: 18446744073709551615\n").isSome = true := by
    decide +kernel
  have hwritten : Boards.written?
    "- BOARD_INDEX: 3\n- env:\n    DEBUG_ADAPTER_ID: 18446744073709551615\n" 1
      "DEBUG_ADAPTER_ID" = some (toString 18446744073709551615) := by
    decide +kernel
  have hkept : toString (Boards.kept 18446744073709551615) = "18446744073709552000" := by
    decide +kernel
  obtain ⟨es, hes⟩ := Option.isSome_iff_exists.1 hread
  obtain ⟨-, e, he, hget, -⟩ := Environment.ofBoards?_whole hes hwritten
  exact ⟨es, e, hes, he, hget.trans (congrArg some hkept)⟩

end ProximityLab
