import ProximityLab.Proofs.Testbed.Reservation
import Mathlib.Data.List.Nodup

/-!
# The addresses of a reservation

A reservation that runs brings addresses for the requests that name a board. `assign` goes through
the requests in their order, and sets an address that is asked for aside only when its request comes
up.

- **One request** (`given?_cases`, `assignOne_left`): a request keeps or takes an address, which is
  not left then.
- **All requests** (`one_lt_count_assign_iff`): an address is given twice exactly if it is
  `Anticipated`: a request for a board takes it, and a later request asks for it. None is if all
  addresses are asked for before the boards (`not_anticipated_of_append`).
- **A reservation** (`Lease.reserve_distinct`): its environments have different addresses unless an
  anticipated address has a position.
-/

namespace ProximityLab.Testbed

/-! ## Addresses -/

/-- The address of an environment in the testbed. -/
def address? (e : Environment) : Option String := e.get? Environment.addressVar

/-- The addresses of the environments that have one. -/
def addresses (es : List Environment) : List String := es.filterMap address?

theorem addresses_cons (e : Environment) (es : List Environment) :
    addresses (e :: es) = (address? e).toList ++ addresses es := by
  cases h : address? e with
  | none => exact List.filterMap_cons_none h
  | some a => exact List.filterMap_cons_some h

@[simp] theorem address?_set_addressVar (e : Environment) (a : String) :
    address? (e.set Environment.addressVar a) = some a := Variables.get?_set_self ..

theorem address?_set_of_ne (e : Environment) {name : String} (h : Environment.addressVar ≠ name)
    (value : String) :
    address? (e.set name value) = address? e := Variables.get?_set_of_ne e.vars h

/-! ## One request -/

/-- The first match is taken out. -/
theorem takeFirst_eq_some {p : String → Bool} {free rest : List String} {a : String}
    (h : takeFirst p free = some (a, rest)) :
    p a = true ∧ ∃ before after, free = before ++ a :: after ∧ rest = before ++ after ∧
      ∀ x ∈ before, p x = false := by
  induction free generalizing rest with
  | nil => cases h
  | cons b free ih =>
    rw [takeFirst] at h
    split at h
    · rename_i hb
      cases h
      exact ⟨hb, [], free, rfl, rfl, List.forall_mem_nil _⟩
    · rename_i hb
      obtain ⟨⟨a', rest'⟩, htake, heq⟩ := Option.map_eq_some_iff.1 h
      cases heq
      obtain ⟨ha, before, after, rfl, rfl, hbefore⟩ := ih htake
      exact ⟨ha, b :: before, after, rfl, rfl,
        List.forall_mem_cons.2 ⟨Bool.eq_false_iff.2 hb, hbefore⟩⟩

theorem takeFirst_eq_none {p : String → Bool} {free : List String} (h : takeFirst p free = none) :
    ∀ a ∈ free, p a = false := by
  induction free with
  | nil => exact List.forall_mem_nil _
  | cons a free ih =>
    rw [takeFirst] at h
    split at h
    · cases h
    · rename_i ha
      exact List.forall_mem_cons.2 ⟨Bool.eq_false_iff.2 ha, ih (Option.map_eq_none_iff.1 h)⟩

theorem takeFirst_spec {p : String → Bool} {free rest : List String} {a : String}
    (h : takeFirst p free = some (a, rest)) : p a = true ∧ a ∈ free ∧ rest = free.erase a := by
  obtain ⟨ha, before, after, rfl, rfl, hbefore⟩ := takeFirst_eq_some h
  have hnew : a ∉ before := fun hmem => Bool.false_ne_true ((hbefore a hmem).symm.trans ha)
  refine ⟨ha, List.mem_append_right _ List.mem_cons_self, ?_⟩
  rw [List.erase_append_right _ hnew, List.erase_cons_head]

/-- The address that a request for a board takes, and what is left then. -/
def choice? (free : List String) (e : Environment) : Option (String × List String) :=
  takeFirst (isAddressOf (e.board?.getD "")) free

/-- The address of an environment when its request was served. -/
def given? (free : List String) (e : Environment) : Option String := address? (assignOne free e).1

theorem assignOne_of_address {free : List String} {e : Environment} {a : String}
    (h : address? e = some a) :
    assignOne free e = (e, free.filter (· ≠ a)) := by
  rw [address?] at h
  rw [assignOne, h]

theorem assignOne_of_taken {free rest : List String} {e : Environment} {a : String}
    (haddress : address? e = none) (hchoice : choice? free e = some (a, rest)) :
    assignOne free e = (e.set Environment.addressVar a, rest) := by
  rw [address?] at haddress
  rw [choice?] at hchoice
  rw [assignOne, haddress, hchoice]

theorem assignOne_of_none {free : List String} {e : Environment} (haddress : address? e = none)
    (hchoice : choice? free e = none) : assignOne free e = (e, free) := by
  rw [address?] at haddress
  rw [choice?] at hchoice
  rw [assignOne, haddress, hchoice]

theorem given?_of_choice {free rest : List String} {e : Environment} {a : String}
    (hboard : address? e = none) (hchoice : choice? free e = some (a, rest)) :
    given? free e = some a := by
  rw [given?, assignOne_of_taken hboard hchoice]
  exact address?_set_addressVar e a

/-- A request keeps the address that it asks for, and else takes one if there is one. -/
theorem given?_cases (free : List String) (e : Environment) :
    given? free e = address? e ∨
      ∃ a rest, address? e = none ∧ choice? free e = some (a, rest) ∧ a ∈ free ∧
      given? free e = some a := by
  cases haddress : address? e with
  | some a =>
    left
    rw [given?, assignOne_of_address haddress]
    exact haddress
  | none =>
    cases hchoice : choice? free e with
    | none =>
      left
      rw [given?, assignOne_of_none haddress hchoice]
      exact haddress
    | some taken =>
      obtain ⟨a, rest⟩ := taken
      exact .inr ⟨a, rest, rfl, rfl, (takeFirst_spec hchoice).2.1,
        given?_of_choice haddress hchoice⟩

/-- The address that a request was served with is not left. -/
theorem assignOne_left {free : List String} (hfree : free.Nodup) (e : Environment) :
    (assignOne free e).2 = free.filter (given? free e ≠ some ·) := by
  unfold given?
  cases haddress : address? e with
  | some a =>
    rw [assignOne_of_address haddress, haddress]
    simp [eq_comm]
  | none =>
    cases hchoice : choice? free e with
    | none =>
      rw [assignOne_of_none haddress hchoice, haddress]
      simp
    | some taken =>
      obtain ⟨a, rest⟩ := taken
      rw [assignOne_of_taken haddress hchoice, address?_set_addressVar,
        (takeFirst_spec hchoice).2.2, hfree.erase_eq_filter]
      exact List.filter_congr fun x _ => by simp [bne, beq_eq_decide, eq_comm]

theorem addresses_assign_cons (id : Nat) (free : List String) (e : Environment)
    (es : List Environment) :
    addresses (assign id free (e :: es)) =
      (given? free e).toList ++ addresses (assign id (assignOne free e).2 es) := by
  rw [assign, addresses_cons, address?_set_of_ne _ (by decide), given?]

/-! ## All requests -/

/-- A request for a board takes the address, and a later request asks for it. -/
inductive Anticipated : List String → List Environment → String → Prop where
  | here {free rest : List String} {e : Environment} {es : List Environment} {a : String}
      (hboard : address? e = none) (hchoice : choice? free e = some (a, rest))
      (hlater : a ∈ addresses es) : Anticipated free (e :: es) a
  | later {free : List String} {e : Environment} {es : List Environment} {a : String}
      (h : Anticipated (assignOne free e).2 es a) : Anticipated free (e :: es) a

theorem Anticipated.asked {free : List String} {es : List Environment} {a : String}
    (h : Anticipated free es a) :
    a ∈ addresses es := by
  induction h with
  | here _ _ hlater => exact addresses_cons .. ▸ List.mem_append_right _ hlater
  | later _ ih => exact addresses_cons .. ▸ List.mem_append_right _ ih

section Assign

variable {free : List String} (hfree : free.Nodup)
include hfree

/-- An address that is not left is given as often as it is asked for. -/
theorem count_assign_of_not_mem {a : String} (ha : a ∉ free) (id : Nat) (es : List Environment) :
    (addresses (assign id free es)).count a = (addresses es).count a := by
  induction es generalizing free with
  | nil => rfl
  | cons e es ih =>
    rw [addresses_assign_cons, addresses_cons, List.count_append, List.count_append,
      assignOne_left hfree, ih (hfree.filter _) fun h => ha (List.mem_filter.1 h).1]
    obtain hgiven | ⟨b, rest, hboard, -, hb, hgiven⟩ := given?_cases free e
    · rw [hgiven]
    · have hne : b ≠ a := fun h => ha (h ▸ hb)
      rw [hgiven, hboard]
      simp [hne]

/-- An address is given twice exactly if it is anticipated. -/
theorem one_lt_count_assign_iff {es : List Environment} (hes : (addresses es).Nodup) (id : Nat)
    (a : String) :
    1 < (addresses (assign id free es)).count a ↔ Anticipated free es a := by
  induction es generalizing free with
  | nil => exact iff_of_false (by simp [assign, addresses]) nofun
  | cons e es ih =>
    rw [addresses_cons] at hes
    have hrest : (addresses es).Nodup := hes.of_append_right
    rw [addresses_assign_cons, List.count_append]
    by_cases hgiven : given? free e = some a
    · -- the address is gone, so it is given again only if it is asked for again
      have hgone : a ∉ (assignOne free e).2 := by simp [assignOne_left hfree, hgiven]
      have hleft : (assignOne free e).2.Nodup := assignOne_left hfree e ▸ hfree.filter _
      rw [hgiven, count_assign_of_not_mem hleft hgone, Option.toList_some,
        List.count_singleton_self, Nat.lt_add_right_iff_pos, List.count_pos_iff]
      constructor
      · intro hmem
        obtain hkept | ⟨b, rest, hboard, hchoice, -, hb⟩ := given?_cases free e
        · have hasked : address? e = some a := hkept ▸ hgiven
          rw [hasked] at hes
          exact absurd hmem (List.nodup_cons.1 hes).1
        · obtain rfl : b = a := Option.some.inj (hb.symm.trans hgiven)
          exact .here hboard hchoice hmem
      · intro h
        cases h with
        | here _ _ hlater => exact hlater
        | later h => exact h.asked
    · have hleft : (assignOne free e).2.Nodup := assignOne_left hfree e ▸ hfree.filter _
      have hzero : (given? free e).toList.count a = 0 := by
        rw [List.count_eq_zero, Option.mem_toList]
        exact hgiven
      rw [hzero, Nat.zero_add, ih hleft hrest]
      refine ⟨.later, fun h => ?_⟩
      cases h with
      | here hboard hchoice => exact absurd (given?_of_choice hboard hchoice) hgiven
      | later h => exact h

/-- The addresses are given once each exactly if none is anticipated. -/
theorem nodup_assign_iff {es : List Environment} (hes : (addresses es).Nodup) (id : Nat) :
    (addresses (assign id free es)).Nodup ↔ ∀ a, ¬ Anticipated free es a := by
  rw [List.nodup_iff_count_le_one]
  exact forall_congr' fun a => by rw [← one_lt_count_assign_iff hfree hes id a, Nat.not_lt]

end Assign

/-- No address is anticipated if the addresses are asked for before the boards. -/
theorem not_anticipated_of_append {free : List String} {es fs : List Environment}
    (hes : ∀ e ∈ es, address? e ≠ none) (hfs : addresses fs = []) (a : String) :
    ¬ Anticipated free (es ++ fs) a := by
  induction es generalizing free with
  | nil =>
    intro h
    have hmem := h.asked
    rw [List.nil_append, hfs] at hmem
    cases hmem
  | cons e es ih =>
    obtain ⟨he, hes⟩ := List.forall_mem_cons.1 hes
    intro h
    cases h with
    | here hboard => exact he hboard
    | later h => exact ih hes h

/-! ## A reservation -/

/-- An environment is kept if its address has a position. -/
theorem locate_cons (located : List Located) (e : Environment) (es : List Environment) :
    locate located (e :: es) =
      ((address? e).bind fun a => (positionOf? located a).map fun p => e.placed (some p)).toList ++
        locate located es := by
  rw [address?]
  cases haddress : e.get? Environment.addressVar with
  | none => simp [locate, haddress]
  | some a =>
    cases hposition : positionOf? located a with
    | none => simp [locate, haddress, hposition]
    | some p => simp [locate, haddress, hposition]

/-- Whoever has a position keeps the address. -/
theorem addresses_locate (located : List Located) (es : List Environment) :
    addresses (locate located es) = (addresses es).filter fun a =>
      (positionOf? located a).isSome := by
  induction es with
  | nil => rfl
  | cons e es ih =>
    rw [addresses_cons, List.filter_append, ← ih, locate_cons]
    cases haddress : address? e with
    | none => simp
    | some a =>
      cases hposition : positionOf? located a with
      | none => simp [hposition]
      | some p =>
        rw [Option.bind_some, hposition, Option.map_some, Option.toList_some, List.singleton_append,
          addresses_cons, show address? (e.placed (some p)) = some a from haddress]
        simp [hposition]

/-- A request that names no board is for an address. -/
theorem address?_requestedDevice {site r : String} {e : Environment}
    (h : requestedDevice site r = .ok e) :
    address? e = if (board? r).isNone then some r else none := by
  obtain ⟨b, hboard, rfl⟩ | ⟨b, hboard, -, -, rfl⟩ := requestedDevice_cases h
  · rw [hboard]
    rfl
  · rw [hboard, address?, get?_addressVar_addressed]
    rfl

/-- The addresses of the environments are those that are asked for. -/
theorem addresses_requested {requests : List String} {site : String} {es : List Environment}
    (h : requested requests site = .ok es) :
    addresses es = requests.filter fun r => (board? r).isNone := by
  obtain ⟨-, hdevices⟩ := requested_ok h
  clear h
  induction hdevices with
  | nil => rfl
  | cons hr _ ih =>
    rw [addresses_cons, ih, List.filter_cons, address?_requestedDevice hr]
    split <;> rfl

namespace Lease

/-- Environments that are reserved are those of the request, served with the nodes that the testbed
assigned. -/
theorem reserve_value {l l' : Lease} {requests : List String} {name site : String}
    {minutes now horizon now' : Nat} {es : List Environment}
    (h : l.reserve requests name site minutes now horizon = (.value es, now', l')) :
    ∃ devices id nodes located, requested requests site = .ok devices ∧
      (∃ calls, l.api.nodes calls id = .ok nodes) ∧
      (∃ calls, l.api.positions calls id = .ok located) ∧
      es = locate located (assign id nodes devices) := by
  have hreserving := l.reserving requests name site minutes now horizon
  rw [h] at hreserving
  cases hreserving with
  | lost _ _ _ hlost => exact absurd rfl (hlost es)
  | running hdevices _ _ hnodes hlocated =>
    exact ⟨_, _, _, _, hdevices, ⟨_, hnodes⟩, ⟨_, hlocated⟩, rfl⟩

/-- If no address is asked for twice and the testbed assigns none twice, the nodes are given to
different environments unless an address is anticipated, and the environments that are reserved have
different addresses unless it has a position. -/
theorem reserve_distinct {l l' : Lease} {requests : List String} {name site : String}
    {minutes now horizon now' : Nat} {es : List Environment}
    (hrequests : (requests.filter fun r => (board? r).isNone).Nodup)
    (hnodes : ∀ calls id nodes, l.api.nodes calls id = .ok nodes → nodes.Nodup)
    (hreserve : l.reserve requests name site minutes now horizon = (.value es, now', l')) :
    ∃ devices id nodes located, requested requests site = .ok devices ∧
      (∃ calls, l.api.nodes calls id = .ok nodes) ∧
      (∃ calls, l.api.positions calls id = .ok located) ∧
      es = locate located (assign id nodes devices) ∧
      ((addresses (assign id nodes devices)).Nodup ↔ ∀ a, ¬ Anticipated nodes devices a) ∧
      ((addresses es).Nodup ↔ ∀ a, Anticipated nodes devices a → positionOf? located a = none) := by
  obtain ⟨devices, id, nodes, located, hdevices, ⟨calls, hassigned⟩, hlocated, hes⟩ :=
    reserve_value hreserve
  have hfree := hnodes calls id nodes hassigned
  rw [← addresses_requested hdevices] at hrequests
  refine ⟨devices, id, nodes, located, hdevices, ⟨calls, hassigned⟩, hlocated, hes,
    nodup_assign_iff hfree hrequests id, ?_⟩
  rw [hes, addresses_locate, List.nodup_iff_count_le_one]
  refine forall_congr' fun a => ?_
  rw [← one_lt_count_assign_iff hfree hrequests id a]
  cases hposition : positionOf? located a with
  | none =>
    have hzero : ((addresses (assign id nodes devices)).filter
        fun a => (positionOf? located a).isSome).count a = 0 :=
      List.count_eq_zero.2 (by simp [hposition])
    simp [hzero]
  | some position => rw [List.count_filter (by simp [hposition])]; simp

/-- A testbed that runs every reservation on two nodes. -/
def twoNodes : TestbedApi where
  submit _ _ _ _ := .ok 12345
  state _ _ := .ok "Running"
  nodes _ _ := .ok ["dwm1001-1.lille.iot-lab.info", "dwm1001-2.lille.iot-lab.info"]
  positions _ _ := .ok [⟨"dwm1001-1.lille.iot-lab.info", ⟨.ofInt 1, .ofInt 0, .ofInt 0⟩⟩,
    ⟨"dwm1001-2.lille.iot-lab.info", ⟨.ofInt 2, .ofInt 0, .ofInt 0⟩⟩]
  stop _ _ := .ok ()

/-- A board that is requested in front of an address gets that address too. -/
theorem reserve_distinct_boardFirst :
    let requests := ["dwm1001", "dwm1001-1.lille.iot-lab.info"]
    let lease := new twoNodes (.ofSeconds 1) (.ofSeconds 10)
    ∃ es now l', lease.reserve requests "exp" "lille" 120 0 10 = (.value es, now, l') ∧
      addresses es = ["dwm1001-1.lille.iot-lab.info", "dwm1001-1.lille.iot-lab.info"] ∧
      ∃ devices nodes a, requested requests "lille" = .ok devices ∧
      Anticipated nodes devices a := by
  intro requests lease
  obtain ⟨es, now, l', hreserve⟩ : ∃ es now l',
      lease.reserve requests "exp" "lille" 120 0 10 = (.value es, now, l') :=
    ⟨_, _, _, rfl⟩
  have hes : addresses es = ["dwm1001-1.lille.iot-lab.info", "dwm1001-1.lille.iot-lab.info"] := by
    have hrun : (match lease.reserve requests "exp" "lille" 120 0 10 with
        | (.value es, _) => addresses es
        | _ => []) = ["dwm1001-1.lille.iot-lab.info", "dwm1001-1.lille.iot-lab.info"] := by
      decide +kernel
    rwa [hreserve] at hrun
  refine ⟨es, now, l', hreserve, hes, ?_⟩
  have hnodes : ∀ calls id nodes, lease.api.nodes calls id = .ok nodes → nodes.Nodup := by
    rintro calls id nodes ⟨⟩
    decide
  obtain ⟨devices, id, nodes, located, hdevices, -, -, -, hassigned, hreserved⟩ :=
    reserve_distinct (by decide +kernel) hnodes hreserve
  have htwice : ¬ (addresses es).Nodup := by rw [hes]; decide
  rw [hreserved, not_forall] at htwice
  obtain ⟨a, ha⟩ := htwice
  exact ⟨devices, nodes, a, hdevices, (Classical.not_imp.1 ha).1⟩

end Lease

end ProximityLab.Testbed
