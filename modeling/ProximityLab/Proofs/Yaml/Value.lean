import ProximityLab.Proofs.Number.Whole
import ProximityLab.Yaml.Value
import Mathlib.Data.List.Forall2

/-!
# What YAML documents denote

- **Nodes** (`Node.Denotes`): a node has its value within the limits of its document. An alias has
  the value of what it repeats, a collection those of its parts (`Node.Denotes.form`).
- **Lists** (`denotes_of_readList?`): the values of a list are those of its items, one for each.
- **Whole numbers** (`Value.ofPlain?_toString`): a plain scalar of digits is the integer that it
  denotes up to 64 bits. Between 64 and 128 bits it has no value, and beyond it is the nearest
  double, or a text if that is infinite.
-/

namespace ProximityLab.Yaml

namespace Value

/-- The text that a value is. -/
def text? : Value → Option String
  | .text s => some s
  | _ => none

/-- The entries of a mapping. -/
def entries? : Value → Option (List (Value × Value))
  | .mapping entries => some entries
  | _ => none

/-- A scalar denotes no mapping. -/
theorem entries?_of_ofPlain? {s : String} {v : Value} (h : ofPlain? s = some v) :
    v.entries? = none := by
  unfold ofPlain? at h
  repeat' split at h
  all_goals cases h <;> rfl

theorem entries?_of_ofScalar? {tag : Option String} {plain : Bool} {s : String} {v : Value}
    (h : ofScalar? tag plain s = some v) : v.entries? = none := by
  unfold ofScalar? at h
  split at h
  · split at h
    · exact entries?_of_ofPlain? h
    · cases h
      rfl
  · split at h
    · cases h
      rfl
    · exact absurd h nofun
  · obtain ⟨b, -, rfl⟩ := Option.map_eq_some_iff.1 h
    rfl
  · obtain ⟨i, -, rfl⟩ := Option.map_eq_some_iff.1 h
    rfl
  · obtain ⟨x, -, rfl⟩ := Option.map_eq_some_iff.1 h
    rfl
  · split at h
    · exact absurd h nofun
    · cases h
      rfl

end Value

namespace Node

/-- The node that an alias repeats, however often. -/
def target : Node → Node
  | .alias n => n.target
  | n => n

/-- The value of a scalar, or of an alias of one. -/
def scalar? (n : Node) : Option Value :=
  match n.target with
  | .scalar tag plain s => Value.ofScalar? tag plain s
  | _ => none

/-- The text of a scalar that is neither quoted nor tagged. -/
def plain? (n : Node) : Option String :=
  match n.target with
  | .scalar none true s => some s
  | _ => none

/-- The entries of a mapping. -/
def entries? (n : Node) : Option (List (Node × Node)) :=
  match n.target with
  | .mapping _ entries => some entries
  | _ => none

/-- The items of the list that a text holds. -/
def listItems (text : String) : List Node :=
  match (Token.scan? text).bind ofTokens? with
  | some (some (.sequence _ items)) => items
  | _ => []

/-- The node has this value, with some room and some aliases left. -/
def Denotes (n : Node) (v : Value) : Prop :=
  ∃ room budget left, (Value.resolve? room n).run budget = some (v, left)

/-- The keys and the values of two mappings correspond. -/
def EntryDenotes (e : Node × Node) (p : Value × Value) : Prop := e.1.Denotes p.1 ∧ e.2.Denotes p.2

theorem denotes_items {room budget left : Nat} {items : List Node} {vs : List Value}
    (h : (Value.resolveItems? room items).run budget = some (vs, left)) :
    List.Forall₂ Denotes items vs := by
  induction items generalizing budget vs with
  | nil =>
    simp only [Value.resolveItems?, StateT.run_pure, Option.pure_def, Option.some.injEq,
      Prod.mk.injEq] at h
    rw [← h.1]
    exact .nil
  | cons n ns ih =>
    simp only [Value.resolveItems?, StateT.run_bind, Option.bind_eq_bind, Option.bind_eq_some_iff,
      Prod.exists, StateT.run_pure, Option.pure_def, Option.some.injEq, Prod.mk.injEq] at h
    obtain ⟨v, after, hv, vs, _, hvs, rfl, rfl⟩ := h
    exact .cons ⟨room, budget, after, hv⟩ (ih hvs)

theorem denotes_entries {room budget left : Nat} {entries : List (Node × Node)}
    {ps : List (Value × Value)}
    (h : (Value.resolveEntries? room entries).run budget = some (ps, left)) :
    List.Forall₂ EntryDenotes entries ps := by
  induction entries generalizing budget ps with
  | nil =>
    simp only [Value.resolveEntries?, StateT.run_pure, Option.pure_def, Option.some.injEq,
      Prod.mk.injEq] at h
    rw [← h.1]
    exact .nil
  | cons e es ih =>
    simp only [Value.resolveEntries?, StateT.run_bind, Option.bind_eq_bind, Option.bind_eq_some_iff,
      Prod.exists, StateT.run_pure, Option.pure_def, Option.some.injEq, Prod.mk.injEq] at h
    obtain ⟨k, after, hk, v, later, hv, ps, _, hps, rfl, rfl⟩ := h
    exact .cons ⟨⟨room, budget, after, hk⟩, ⟨room, after, later, hv⟩⟩ (ih hps)

/-- What a node denotes, by what it is or repeats. -/
inductive Form : Node → Value → Prop
  | scalar {tag : Option String} {plain : Bool} {s : String} {v : Value}
      (h : Value.ofScalar? tag plain s = some v) :
    Form (.scalar tag plain s) v
  | sequence {tag : Option String} {items : List Node} {vs : List Value}
      (h : List.Forall₂ Denotes items vs) :
    Form (.sequence tag items) (.sequence vs)
  | mapping {tag : Option String} {entries : List (Node × Node)} {ps : List (Value × Value)}
    (h : List.Forall₂ EntryDenotes entries ps) : Form (.mapping tag entries) (.mapping ps)

/-- A step that is not refused takes the value of the step within. -/
theorem run_unless {α β : Type} {c : Bool} {x : StateT Nat Option α} {f : α → β} {budget left : Nat}
    {v : β} (h : (if c = true then failure else do return f (← x)).run budget = some (v, left)) :
    ∃ a, x.run budget = some (a, left) ∧ v = f a := by
  split at h
  · exact absurd h nofun
  · simp only [StateT.run_bind, Option.bind_eq_bind, Option.bind_eq_some_iff, Prod.exists,
      StateT.run_pure, Option.pure_def, Option.some.injEq, Prod.mk.injEq] at h
    obtain ⟨a, _, ha, rfl, rfl⟩ := h
    exact ⟨a, ha, rfl⟩

theorem Denotes.form {n : Node} {v : Value} (h : n.Denotes v) : Form n.target v := by
  obtain ⟨room, budget, left, h⟩ := h
  -- An alias takes from the budget, which changes on the way to the target, and a collection from
  -- the room.
  fun_induction target n generalizing budget with
  | case1 n ih =>
    cases budget with
    | zero => exact absurd h nofun
    | succ budget => exact ih budget h
  | case2 n halias =>
    match n, room with
    | .alias n, _ => exact absurd rfl (halias n)
    | .scalar tag plain s, _ =>
      rw [Value.resolve?] at h
      obtain ⟨w, hw, hv⟩ := Option.bind_eq_some_iff.1 h
      obtain ⟨rfl, -⟩ := Prod.mk.inj (Option.some.inj hv)
      exact .scalar hw
    | .sequence .., 0 => exact absurd h nofun
    | .mapping .., 0 => exact absurd h nofun
    | .sequence tag items, room + 1 =>
      rw [Value.resolve?] at h
      obtain ⟨vs, hvs, rfl⟩ := run_unless h
      exact .sequence (denotes_items hvs)
    | .mapping tag entries, room + 1 =>
      rw [Value.resolve?] at h
      obtain ⟨ps, hps, rfl⟩ := run_unless h
      exact .mapping (denotes_entries hps)

namespace Denotes

variable {n : Node} {v : Value}

theorem ofPlain? {s : String} (h : n.Denotes v) (hs : n.plain? = some s) :
    Value.ofPlain? s = some v := by
  have hform := h.form
  unfold plain? at hs
  split at hs
  · rename_i htarget
    cases hs
    rw [htarget] at hform
    cases hform with
    | scalar hv => exact hv
  · exact absurd hs nofun

/-- What is read off scalars only is read off the node. -/
theorem scalar?_bind {α : Type} {f : Value → Option α} (h : n.Denotes v)
    (hsequence : ∀ vs, f (.sequence vs) = none) (hmapping : ∀ ps, f (.mapping ps) = none) :
    n.scalar?.bind f = f v := by
  have hform := h.form
  unfold scalar?
  generalize n.target = t at hform
  cases hform with
  | scalar hv => exact congrArg (Option.bind · f) hv
  | sequence => exact (hsequence _).symm
  | mapping => exact (hmapping _).symm

theorem entries? (h : n.Denotes v) :
    Option.Rel (List.Forall₂ EntryDenotes) n.entries? v.entries? := by
  have hform := h.form
  unfold Node.entries?
  generalize n.target = t at hform
  cases hform with
  | scalar hv =>
    rw [Value.entries?_of_ofScalar? hv]
    exact .none
  | sequence => exact .none
  | mapping hps => exact .some hps

end Denotes

/-- A list has the values of its items. -/
theorem denotes_of_readList? {text : String} {vs : List Value}
    (h : Value.readList? text = some vs) :
    List.Forall₂ Denotes (listItems text) vs := by
  obtain ⟨tokens, htokens, h⟩ := Option.bind_eq_some_iff.1 h
  obtain ⟨document, hdocument, h⟩ := Option.bind_eq_some_iff.1 h
  rw [listItems, htokens, Option.bind_some, hdocument]
  cases document with
  | none =>
    cases h
    exact .nil
  | some document =>
    change Value.listOfNode? document = some vs at h
    unfold Value.listOfNode? at h
    split at h
    · obtain ⟨⟨vs, left⟩, hvs, rfl⟩ := Option.map_eq_some_iff.1 h
      exact denotes_items hvs
    case h_5 => exact absurd h nofun
    all_goals
      split at h
      · cases h
        exact .nil
      · exact absurd h nofun

end Node

/-! ## Whole numbers -/

namespace Value

open Numeral (isDigit isDigit_of_mem_toDigits leadingDigits_toDigits)

/-- A word that is not made of digits. -/
theorem ofList_toDigits_ne {n : Nat} {w : String} (hw : w.toList.all isDigit = false) :
    String.ofList (Nat.toDigits 10 n) ≠ w :=
  Numeral.ofList_ne_word (fun _ => isDigit_of_mem_toDigits) hw

theorem splitSign_toDigits (n : Nat) : splitSign (Nat.toDigits 10 n) = (false, Nat.toDigits 10 n) :=
  Numeral.splitSign_of_digits fun _ => isDigit_of_mem_toDigits

theorem isPaddedDigits_toDigits (n : Nat) : isPaddedDigits (Nat.toDigits 10 n) = false := by
  rw [isPaddedDigits, splitSign_toDigits]
  dsimp only
  rcases (leadingDigits_toDigits n).head with hzero | hhead
  · rw [hzero]
    rfl
  · split
    · rename_i heq
      rw [heq] at hhead
      exact absurd rfl hhead
    · rfl

theorem baseDigit?_of_isDigit {c : Char} (h : isDigit c = true) :
    baseDigit? 10 c = some (Numeral.digitValue c) := by
  have hnine := Numeral.le_nine_of_isDigit h
  have hhex : hexDigit? c = some (Numeral.digitValue c) := if_pos h
  have hvalue : Numeral.digitValue c < 10 := by
    unfold Numeral.digitValue
    omega
  rw [baseDigit?, hhex]
  simpa using hvalue

theorem foldlM_baseDigit? {ds : List Char} (h : ∀ c ∈ ds, isDigit c = true) (n : Nat) :
    ds.foldlM (fun n c => (baseDigit? 10 c).map (10 * n + ·)) n =
      some (ds.foldl (fun n c => 10 * n + Numeral.digitValue c) n) := by
  induction ds generalizing n with
  | nil => rfl
  | cons c ds ih =>
    obtain ⟨hc, hds⟩ := List.forall_mem_cons.1 h
    rw [List.foldlM_cons, baseDigit?_of_isDigit hc]
    exact ih hds _

theorem magnitude?_toDigits (n : Nat) : magnitude? (Nat.toDigits 10 n) = some n := by
  have hdigits : ∀ c ∈ Nat.toDigits 10 n, isDigit c = true := fun _ => isDigit_of_mem_toDigits
  have hdecimal : ofDigits? 10 (Nat.toDigits 10 n) = some n := by
    rw [ofDigits?, if_neg (by simp), foldlM_baseDigit? hdigits]
    exact congrArg some (Numeral.valueOf_toDigits n)
  -- The letter of another base is no digit.
  unfold magnitude?
  split
  · rename_i heq
    exact absurd (hdigits 'x' (by simp [heq])) (by decide)
  · rename_i heq
    exact absurd (hdigits 'o' (by simp [heq])) (by decide)
  · rename_i heq
    exact absurd (hdigits 'b' (by simp [heq])) (by decide)
  · rw [isPaddedDigits_toDigits, if_neg Bool.false_ne_true, hdecimal]

theorem int?_toDigits (n : Nat) :
    int? (Nat.toDigits 10 n) = if n < 2 ^ 128 then some (n : Int) else none := by
  rw [int?, splitSign_toDigits]
  dsimp only
  rw [magnitude?_toDigits]
  rfl

theorem float?_toDigits (n : Nat) :
    float? (Nat.toDigits 10 n) =
      if (Binary64.ofNat n).isFinite = true then some (.ofNat n) else none := by
  unfold float?
  split
  case h_13 =>
    rw [Binary64.ofText?_toDigits]
    rfl
  all_goals
    rename_i hword
    exact absurd hword (ofList_toDigits_ne (by decide))

/-- Digits are no word: neither null nor a truth value. -/
theorem contains_toString {words : List String} (n : Nat)
    (h : ∀ w ∈ words, w.toList.all isDigit = false) : words.contains (toString n) = false := by
  rw [List.contains_eq_mem, decide_eq_false_iff_not]
  exact fun hmem => ofList_toDigits_ne (h _ hmem) rfl

/-- **A plain scalar of digits.** It is an integer up to 64 bits, and malformed between 64 and 128
bits. A longer one is the nearest double, or a text if there is no finite one. -/
theorem ofPlain?_toString (n : Nat) :
    ofPlain? (toString n) =
      if n < 2 ^ 64 then some (.int n)
      else if n < 2 ^ 128 then none
      else if (Binary64.ofNat n).isFinite = true then some (.float (.ofNat n))
      else some (.text (toString n)) := by
  have hlist : (toString n).toList = Nat.toDigits 10 n := String.toList_ofList
  have hempty : (toString n).isEmpty = false := by
    rw [← Bool.not_eq_true, String.isEmpty_iff, ← String.toList_eq_nil_iff, hlist]
    exact Nat.toDigits_ne_nil
  have hnull : isNullWord (toString n) = false := contains_toString n (by decide)
  have hbool : boolWord? (toString n) = none := by
    rw [boolWord?, contains_toString n (by decide), contains_toString n (by decide)]
    rfl
  have hfits : fits n = true ↔ n < 2 ^ 64 := by
    simp [fits]
  rw [ofPlain?, hempty, hnull, hbool, hlist, int?_toDigits, isPaddedDigits_toDigits,
    float?_toDigits]
  dsimp only [Bool.or_false]
  rw [if_neg (show ¬ (false || false) = true from Bool.false_ne_true)]
  by_cases hlarge : n < 2 ^ 128
  · rw [if_pos hlarge, if_pos hlarge]
    exact if_congr hfits rfl rfl
  · rw [if_neg hlarge, if_neg hlarge, if_neg (show ¬ n < 2 ^ 64 by omega)]
    by_cases hfinite : (Binary64.ofNat n).isFinite = true
    · rw [if_pos hfinite, if_pos hfinite]
      rfl
    · rw [if_neg hfinite, if_neg hfinite]
      rfl

end Value

end ProximityLab.Yaml
