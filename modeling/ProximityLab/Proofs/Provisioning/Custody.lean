import ProximityLab.Proofs.Campaign.Run
import ProximityLab.Provisioning.Fleet

/-!
# Custody of terminals

Every terminal that a fleet has opened is in exactly one place: it was closed, it is registered to
be closed, or it is in someone's hands. `Fleet.Custody held f` says that of the fleet `f` when the
terminals `held` are in hands, together with what the journal has to say about it.

Each operation of a fleet hands terminals from place to place:

- `openTerminal` puts a terminal into hands, if it is successful (`Custody.openTerminal`).
- `register` takes it from there, and closes the one that it replaces (`Custody.register`).
- `closeAll` closes what is registered (`Custody.closeAll`).
- A terminal that comes back from use (`giveBack`) is where it was (`Custody.giveBack`).

So a fleet that was torn down has closed each terminal once, however it got there.
-/

namespace ProximityLab

namespace Fleet

/-- How often a terminal was closed. -/
def closesOf (f : Fleet) (i : Nat) : Nat := (f.connections[i]?.map (·.terminal.closes)).getD 0

/-- One for a terminal that was opened, zero for any other number. -/
def opens (f : Fleet) (i : Nat) : Nat := if i < f.connections.length then 1 else 0

theorem closesOf_append {f g : Fleet} {c : Connection} (hg : g.connections = f.connections ++ [c])
    (hc : c.terminal.closes = 0) (i : Nat) : g.closesOf i = f.closesOf i := by
  unfold closesOf
  rw [hg]
  rcases Nat.lt_trichotomy i f.connections.length with hlt | rfl | hgt
  · rw [List.getElem?_append_left hlt]
  · simp [hc]
  · rw [List.getElem?_append_right (Nat.le_of_lt hgt), List.getElem?_eq_none (Nat.le_of_lt hgt),
      List.getElem?_eq_none (by simp; omega)]

theorem opens_append {f g : Fleet} {c : Connection} (hg : g.connections = f.connections ++ [c])
    (i : Nat) : g.opens i = f.opens i + if f.connections.length = i then 1 else 0 := by
  unfold opens
  rw [hg, List.length_append, List.length_singleton]
  split <;> split <;> split <;> omega

/-- Closing counts for the terminal that is closed. -/
theorem close_spec (f : Fleet) {i : Nat} (hlt : i < f.connections.length) :
    (∀ j, (f.close i).closesOf j = f.closesOf j + if i = j then 1 else 0) ∧
      (∀ j, (f.close i).opens j = f.opens j) ∧
      (f.close i).registry = f.registry ∧ (f.close i).journal = f.journal ++ [.closed i] := by
  have hi := List.getElem?_eq_getElem hlt
  unfold Fleet.close
  rw [hi]
  refine ⟨fun j => ?_, fun j => by simp [opens], rfl, rfl⟩
  simp only [closesOf, List.getElem?_set, hlt]
  split
  · subst_vars
    simp [hi, Terminal.close]
  · simp

/-- A terminal that comes back as often closed as it was leaves only lines in the journal. -/
theorem giveBack_spec (f : Fleet) {i : Nat} {t : Terminal} (ht : t.closes = f.closesOf i) :
    (∀ j, (f.giveBack i t).closesOf j = f.closesOf j) ∧
      (∀ j, (f.giveBack i t).opens j = f.opens j) ∧
      (f.giveBack i t).registry = f.registry ∧
      ∃ trials, (f.giveBack i t).journal = f.journal ++ entries i trials := by
  unfold Fleet.giveBack
  split
  · exact ⟨fun _ => rfl, fun _ => rfl, rfl, [], (List.append_nil _).symm⟩
  · rename_i c hc
    obtain ⟨hlt, -⟩ := List.getElem?_eq_some_iff.1 hc
    refine ⟨fun j => ?_, fun j => by simp [opens], rfl, _, rfl⟩
    unfold closesOf at ht ⊢
    rw [List.getElem?_set]
    split
    · subst_vars
      exact ht
    · rfl

/-- A device that is registered once has one terminal among those that are registered. -/
theorem count_filter_lookup {registry : List (String × Nat)} (h : (registry.map (·.1)).Nodup)
    (node : String) (i : Nat) :
    ((registry.filter (·.1 ≠ node)).map (·.2)).count i + (registry.lookup node).toList.count i =
      (registry.map (·.2)).count i := by
  induction registry with
  | nil => rfl
  | cons r registry ih =>
    obtain ⟨key, j⟩ := r
    rw [List.map_cons, List.nodup_cons] at h
    have hrest := ih h.2
    by_cases hk : node = key
    · subst hk
      have hother : ((node, j) :: registry).filter (·.1 ≠ node) = registry := by
        rw [List.filter_cons_of_neg (by simp), List.filter_eq_self]
        exact fun r hr => decide_eq_true fun heq => h.1 (List.mem_map.2 ⟨r, hr, heq⟩)
      rw [hother, List.lookup_cons_self, List.map_cons, List.count_cons, Option.toList_some,
        List.count_singleton]
    · have hlookup : ((key, j) :: registry).lookup node = registry.lookup node := by
        rw [List.lookup_cons, beq_false_of_ne hk]
      have hkeep : ((key, j) :: registry).filter (·.1 ≠ node) =
          (key, j) :: registry.filter (·.1 ≠ node) :=
        List.filter_cons_of_pos (decide_eq_true (Ne.symm hk))
      rw [hlookup, hkeep, List.map_cons, List.map_cons, List.count_cons, List.count_cons]
      omega

/-- Each terminal that was opened is closed, registered, or one of `held`. -/
structure Custody (held : List Nat) (f : Fleet) : Prop where
  /-- A device has one registered terminal at most. -/
  keys : (f.registry.map (·.1)).Nodup
  place : ∀ i, f.closesOf i + (f.registry.map (·.2)).count i + held.count i = f.opens i
  closings : ∀ i, f.journal.count (.closed i) = f.closesOf i
  openings : ∀ i, f.journal.count (.opened i) = f.opens i
  /-- Nothing has been released. -/
  kept : Event.released ∉ f.journal

/-- A successful attempt leaves these terminals in hands, any other one none. -/
def HandsOver {α : Type} (held : α → List Nat) (r : Attempt α × Fleet) : Prop :=
  match r with
  | (.done a, f) => Custody (held a) f
  | (_, f) => Custody [] f

namespace Custody

variable {held : List Nat} {f : Fleet}

theorem new (tool : FirmwareTool) (recipe : Recipe) (files : FileSystem) :
    Custody [] (.new tool recipe files) := by
  constructor <;> simp [Fleet.new, closesOf, opens]

/-- Custody is about the terminals, not about the files or the tool. -/
theorem congr {g : Fleet} (h : Custody held f) (hc : g.connections = f.connections)
    (hr : g.registry = f.registry) (hj : g.journal = f.journal) : Custody held g := by
  obtain ⟨hkeys, hplace, hclosings, hopenings, hkept⟩ := h
  constructor <;> simpa only [closesOf, opens, hc, hr, hj]

theorem build (h : Custody [] f) (call : ToolCall) : HandsOver (fun _ => []) (f.build call) := by
  unfold Fleet.build HandsOver
  rcases f.tool.build f.calls f.files call with ⟨_ | _ | _, files⟩ <;> exact h.congr rfl rfl rfl

/-- A terminal that is in hands is open. -/
theorem closesOf_of_held {i : Nat} (h : Custody held f) (hi : i ∈ held) :
    i < f.connections.length ∧ f.closesOf i = 0 := by
  have hplace := h.place i
  have hcount := List.count_pos_iff.2 hi
  unfold opens at hplace
  split at hplace
  · rename_i hlt
    exact ⟨hlt, by omega⟩
  · omega

/-- A terminal that is added to the others is in hands. -/
theorem added (h : Custody held f) {g : Fleet} {c : Connection}
    (hc : g.connections = f.connections ++ [c]) (hnew : c.terminal.closes = 0)
    (hr : g.registry = f.registry) (hj : g.journal = f.journal ++ [.opened f.connections.length]) :
    Custody (f.connections.length :: held) g := by
  constructor
  · rw [hr]
    exact h.keys
  · intro i
    have hplace := h.place i
    rw [closesOf_append hc hnew, opens_append hc, hr, List.count_cons, ← hplace]
    simp only [beq_iff_eq]
    omega
  · intro i
    rw [closesOf_append hc hnew, hj, ← h.closings i]
    simp
  · intro i
    rw [opens_append hc, hj, ← h.openings i, List.count_append, List.count_singleton]
    simp
  · rw [hj]
    simpa using h.kept

theorem openTerminal (h : Custody [] f) (now : Nat) (call : ToolCall) :
    HandsOver (fun i => [i]) (f.openTerminal now call) := by
  unfold Fleet.openTerminal HandsOver
  rcases f.tool.openTerminal f.calls f.files call with ⟨result, files⟩
  cases result with
  | failed cause => exact h.congr rfl rfl rfl
  | panicked => exact h.congr rfl rfl rfl
  | done behaviour => exact h.added rfl rfl rfl rfl

/-- A terminal in hands is closed for the first time. -/
theorem close {i : Nat} (h : Custody (i :: held) f) : Custody held (f.close i) := by
  obtain ⟨hlt, hopen⟩ := h.closesOf_of_held List.mem_cons_self
  obtain ⟨hcloses, hopens, hr, hj⟩ := f.close_spec hlt
  constructor
  · rw [hr]
    exact h.keys
  · intro j
    have hplace := h.place j
    rw [hcloses, hopens, hr, ← hplace, List.count_cons]
    simp only [beq_iff_eq]
    omega
  · intro j
    rw [hcloses, hj, List.count_append, List.count_singleton, h.closings j]
    simp
  · intro j
    rw [hopens, hj, ← h.openings j]
    simp
  · rw [hj]
    simpa using h.kept

/-- A terminal in hands is registered, and the one that it replaces comes into hands. -/
theorem replaced {node : String} {i : Nat} (h : Custody (i :: held) f) {g : Fleet}
    (hc : g.connections = f.connections) (hj : g.journal = f.journal)
    (hr : g.registry = f.registry.filter (·.1 ≠ node) ++ [(node, i)]) :
    Custody ((f.registered? node).toList ++ held) g := by
  constructor
  · rw [hr, List.map_append, List.nodup_append]
    refine ⟨h.keys.sublist (List.filter_sublist.map _), by simp, ?_⟩
    simp
  · intro j
    have hplace := h.place j
    have hcount := count_filter_lookup h.keys node j
    simp only [closesOf, opens, hc, hr, List.map_append, List.count_append, List.map_cons,
      List.map_nil, List.count_cons, List.count_nil, registered?, beq_iff_eq] at hplace ⊢
    omega
  · simpa only [closesOf, hc, hj] using h.closings
  · simpa only [opens, hc, hj] using h.openings
  · rw [hj]
    exact h.kept

/-- Registering a terminal takes it out of hands. -/
theorem register {i : Nat} (h : Custody (i :: held) f) (node : String) :
    Custody held (f.register node i) := by
  have hreplaced : Custody ((f.registered? node).toList ++ held)
      { f with registry := f.registry.filter (·.1 ≠ node) ++ [(node, i)] } :=
    h.replaced rfl rfl rfl
  unfold Fleet.register
  dsimp only
  split
  · rename_i old hold
    rw [hold] at hreplaced
    exact hreplaced.close
  · rename_i hnone
    rw [hnone] at hreplaced
    exact hreplaced

/-- What goes on after an attempt has to take what that left in hands. -/
theorem andThen {α β : Type} {r : Attempt α × Fleet} {next : α → Fleet → Attempt β × Fleet}
    {held : α → List Nat} (hr : HandsOver held r)
    (hnext : ∀ a g, Custody (held a) g → Custody [] (next a g).2) :
    Custody [] (Fleet.andThen r next).2 := by
  obtain ⟨a | _ | _, g⟩ := r
  · exact hnext a g hr
  · exact hr
  · exact hr

/-- Provisioning leaves no terminal in hands, whatever comes of it. -/
theorem provision (h : Custody [] f) (now : Nat) (e : Environment) :
    Custody [] (f.provision now e).2 := by
  unfold Fleet.provision
  split
  · exact h
  · rename_i node _
    refine andThen (h.build _) fun _ g hg => ?_
    refine andThen (hg.build _) fun _ g hg => ?_
    exact andThen (hg.openTerminal now _) fun i g hg => hg.register node

/-- A terminal that comes back from use is where it was. -/
theorem giveBack (h : Custody held f) {i : Nat} {t : Terminal} (ht : t.closes = f.closesOf i) :
    Custody held (f.giveBack i t) := by
  obtain ⟨hcloses, hopens, hr, trials, hj⟩ := f.giveBack_spec ht
  have hlines : ∀ e : Event, (∀ time line, e ≠ .sent i time line) →
      (f.giveBack i t).journal.count e = f.journal.count e := by
    intro e he
    rw [hj, List.count_append, Nat.add_eq_left, List.count_eq_zero, entries, List.mem_map]
    rintro ⟨a, -, heq⟩
    exact he a.time a.line heq.symm
  constructor
  · rw [hr]
    exact h.keys
  · intro j
    rw [hcloses, hopens, hr]
    exact h.place j
  · intro j
    rw [hcloses, hlines _ (by simp)]
    exact h.closings j
  · intro j
    rw [hopens, hlines _ (by simp)]
    exact h.openings j
  · rw [← List.count_eq_zero, hlines _ (by simp), List.count_eq_zero]
    exact h.kept

/-- Closing what is registered leaves nothing to be closed. -/
theorem closeAll (h : Custody [] f) : f.closeAll.2.registry = [] ∧ Custody [] f.closeAll.2 := by
  have hhands : Custody (f.registry.map (·.2)) { f with registry := [] } := by
    refine ⟨.nil, fun i => ?_, h.closings, h.openings, h.kept⟩
    have hplace := h.place i
    simp at hplace ⊢
    exact hplace
  have hclose : ∀ (held : List Nat) (g : Fleet), g.registry = [] → Custody held g →
      (held.foldl (fun f i => f.close i) g).registry = [] ∧
        Custody [] (held.foldl (fun f i => f.close i) g) := by
    intro held
    induction held with
    | nil => exact fun g hr hg => ⟨hr, hg⟩
    | cons i held ih =>
      intro g hr hg
      have hlt := (hg.closesOf_of_held List.mem_cons_self).1
      exact ih _ ((g.close_spec hlt).2.2.1.trans hr) hg.close
  exact hclose _ _ rfl hhands

end Custody

end Fleet

end ProximityLab
