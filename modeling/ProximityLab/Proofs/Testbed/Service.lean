import ProximityLab.Proofs.Testbed.Assignment

/-!
# What requests get

A reservation turns requests into environments by way of devices, assigned nodes and positions.
`Serves` tells what comes of it request by request: each gets an address or none (`Gets`), and those
that have got an address with a position have an environment that says so (`Describes`), in their
order.

- **One request** (`gets_assignOne`): the environment of a request gets what the request gets.
- **All requests** (`serves_assign`): the environments that are left when all have got their nodes
  and positions serve the requests.
- **A reservation** (`Lease.reserve_serves`): invalid requests do not reach the testbed, and valid
  ones are served with what it answers.
-/

namespace ProximityLab.Testbed

/-! ## Positions -/

/-- The position is the last that is reported for the address. -/
def LastReported (located : List Located) (address : String) (position : Position) : Prop :=
  ∃ before after, located = before ++ ⟨address, position⟩ :: after ∧
  ∀ x ∈ after, x.address ≠ address

theorem lastReported_of_positionOf? {located : List Located} {a : String} {p : Position}
    (h : positionOf? located a = some p) : LastReported located a p := by
  obtain ⟨x, hfind, rfl⟩ := Option.map_eq_some_iff.1 h
  obtain ⟨hx, after, before, hreverse, hafter⟩ := List.find?_eq_some_iff_append.1 hfind
  obtain rfl : x.address = a := by simpa using hx
  refine ⟨before.reverse, after.reverse, ?_, fun y hy => ?_⟩
  · rw [← located.reverse_reverse, hreverse]
    simp
  · simpa using hafter y (List.mem_reverse.1 hy)

theorem positionOf?_eq_none_iff {located : List Located} {a : String} :
    positionOf? located a = none ↔ ∀ x ∈ located, x.address ≠ a := by
  simp [positionOf?, List.find?_eq_none]

/-! ## One request -/

/-- The address that a request gets of the assigned nodes, if `free` are free, and which nodes are
free then. -/
inductive Gets (nodes free : List String) (request : String) :
    Option String → List String → Prop where
  /-- A request for an address gets it. -/
  | asked {b : Board} (hnone : board? request = none) (hboard : boardOfAddress request = .ok b) :
      Gets nodes free request (some request) (free.filter (· ≠ request))
  /-- A request for a board gets the first free node of that board. -/
  | assigned {b : Board} {address : String} {before after : List String}
      (hboard : board? request = some b) (hnode : address ∈ nodes)
      (harchi : Text.startsWith b.archi address = true) (hfree : free = before ++ address :: after)
      (hfirst : ∀ x ∈ before, Text.startsWith b.archi x = false) :
      Gets nodes free request (some address) (before ++ after)
  /-- Or no node of that board is free. -/
  | nothing {b : Board} (hboard : board? request = some b)
      (hnone : ∀ x ∈ free, Text.startsWith b.archi x = false) :
      Gets nodes free request none free

/-- The environment names the board that is requested, or the one that the requested address
says. -/
def HasBoard (request : String) (e : Environment) : Prop :=
  (board? request).isSome ∧ e.board? = some request ∨
    ∃ b, board? request = none ∧ boardOfAddress request = .ok b ∧ e.board? = some b.name

/-- The environment is for the node at an address, which a request has got in a reservation. -/
structure Describes (id : Nat) (request a : String) (p : Position) (e : Environment) : Prop where
  reservation : e.get? Environment.reservationVar = some (toString id)
  address : e.get? Environment.addressVar = some a
  node : e.node? = some a
  position : e.position = some p
  board : HasBoard request e

/-- The environments of a reservation for some requests, if these nodes are free for them. -/
inductive Serves (id : Nat) (nodes : List String) (located : List Located) :
    List String → List String → List Environment → Prop where
  | nil {free : List String} : Serves id nodes located free [] []
  /-- The request has got an address with a position. -/
  | kept {free left requests : List String} {es : List Environment} {request a : String}
      {p : Position} {e : Environment} (hgets : Gets nodes free request (some a) left)
      (hposition : LastReported located a p) (he : Describes id request a p e)
      (hrest : Serves id nodes located left requests es) :
      Serves id nodes located free (request :: requests) (e :: es)
  /-- The address of the request has no position. -/
  | unlocated {free left requests : List String} {es : List Environment} {request a : String}
      (hgets : Gets nodes free request (some a) left) (hnone : ∀ x ∈ located, x.address ≠ a)
      (hrest : Serves id nodes located left requests es) :
      Serves id nodes located free (request :: requests) es
  /-- The request has got no address. -/
  | unassigned {free left requests : List String} {es : List Environment} {request : String}
      (hgets : Gets nodes free request none left)
      (hrest : Serves id nodes located left requests es) :
      Serves id nodes located free (request :: requests) es

theorem isAddressOf_eq {r : String} {b : Board} (h : board? r = some b) :
    isAddressOf r = Text.startsWith b.archi := by
  funext a
  rw [isAddressOf, h]
  rfl

/-- An environment gets what its request gets. -/
theorem gets_assignOne {site r : String} {e : Environment} {nodes free : List String}
    (hr : requestedDevice site r = .ok e) (hfree : free ⊆ nodes) :
    ∃ e' left, assignOne free e = (e', left) ∧ Gets nodes free r (address? e') left ∧
      HasBoard r e' ∧ left ⊆ nodes := by
  obtain ⟨b, hboard, rfl⟩ | ⟨b, hnone, -, hboard, rfl⟩ := requestedDevice_cases hr
  · have haddress : address? (Environment.empty.set Environment.boardVar r) = none := rfl
    have hisAddress := isAddressOf_eq hboard
    have hhas : (board? r).isSome := hboard ▸ rfl
    cases hchoice : choice? free (Environment.empty.set Environment.boardVar r) with
    | none =>
      refine ⟨_, _, assignOne_of_none haddress hchoice, .nothing hboard ?_, .inl ⟨hhas, rfl⟩, hfree⟩
      exact hisAddress ▸ takeFirst_eq_none hchoice
    | some taken =>
      obtain ⟨a, left⟩ := taken
      obtain ⟨ha, before, after, rfl, rfl, hfirst⟩ := takeFirst_eq_some hchoice
      rw [show (Environment.empty.set Environment.boardVar r).board?.getD "" = r from rfl,
        hisAddress] at ha hfirst
      refine ⟨_, _, assignOne_of_taken haddress hchoice, ?_,
        .inl ⟨hhas, Variables.get?_set_of_ne _ (by decide) ..⟩, fun x hx => hfree ?_⟩
      · rw [address?_set_addressVar]
        exact .assigned hboard (hfree (by simp)) ha rfl hfirst
      · exact (List.mem_append.1 hx).elim (List.mem_append_left _) fun hx =>
          List.mem_append_right _ (List.mem_cons_of_mem a hx)
  · have haddress := get?_addressVar_addressed r b.name
    refine ⟨_, _, assignOne_of_address haddress, ?_,
      .inr ⟨b, hnone, hboard, Variables.get?_set_self ..⟩,
      fun x hx => hfree (List.mem_filter.1 hx).1⟩
    rw [address?, haddress]
    exact .asked hnone hboard

theorem describes_of_address {id : Nat} {r a : String} {p : Position} {e : Environment}
    (haddress : address? e = some a) (hboard : HasBoard r e) :
    Describes id r a p ((e.set Environment.reservationVar (toString id)).placed (some p)) := by
  have hget : ∀ name, name ≠ Environment.reservationVar →
      ((e.set Environment.reservationVar (toString id)).placed (some p)).get? name = e.get? name :=
    fun name hname => e.vars.get?_set_of_ne hname
  have hplaced := (hget Environment.addressVar (by decide)).trans haddress
  refine ⟨Variables.get?_set_self .., hplaced, ?_, rfl, ?_⟩
  · rw [Environment.node?, Environment.addressing?, hplaced]
    rfl
  · rw [HasBoard, Environment.board?, hget Environment.boardVar (by decide)]
    exact hboard

/-! ## All requests -/

/-- The environments of an assignment are those that their requests are served with. -/
theorem serves_assign {site : String} {requests : List String} {devices : List Environment}
    {nodes : List String} (id : Nat) (located : List Located)
    (h : List.Forall₂ (fun r e => requestedDevice site r = .ok e) requests devices)
    {free : List String} (hfree : free ⊆ nodes) :
    Serves id nodes located free requests (locate located (assign id free devices)) := by
  induction h generalizing free with
  | nil => exact .nil
  | @cons r e requests devices hr _ ih =>
    obtain ⟨e', left, hassign, hgets, hboard, hleft⟩ := gets_assignOne hr hfree
    have hserves := ih hleft
    rw [assign, hassign]
    dsimp only
    rw [locate_cons, address?_set_of_ne e' (by decide)]
    cases haddress : address? e' with
    | none =>
      rw [haddress] at hgets
      exact .unassigned hgets hserves
    | some a =>
      rw [haddress] at hgets
      cases hposition : positionOf? located a with
      | none =>
        rw [Option.bind_some, hposition]
        exact .unlocated hgets (positionOf?_eq_none_iff.1 hposition) hserves
      | some p =>
        rw [Option.bind_some, hposition]
        exact .kept hgets (lastReported_of_positionOf? hposition)
          (describes_of_address haddress hboard) hserves

/-! ## A reservation -/

namespace Lease

/-- Unless the site and all requests are valid, the testbed is not called and the lease is as it
was. It can be asked for the devices of all valid requests. The environments that are reserved serve
the requests with what the testbed has answered to the calls of this reservation. -/
theorem reserve_serves (l : Lease) (requests : List String) (name site : String)
    (minutes now horizon : Nat) :
    (¬ (site ∈ sites ∧ ∀ r ∈ requests, Valid site r) →
      ∃ cause, l.reserve requests name site minutes now horizon = (.failed cause, now, l)) ∧
    (site ∈ sites ∧ (∀ r ∈ requests, Valid site r) →
      ∃ devices, requested requests site = .ok devices ∧
      ∀ e ∈ devices, ∃ asked, resource site e = .ok asked) ∧
    (∀ es now' l', l.reserve requests name site minutes now horizon = (.value es, now', l') →
      ∃ asked id polls nodes located, l.api.submit l.calls name minutes asked = .ok id ∧
        l'.calls = l.calls ++ .submit name minutes asked :: (polls ++ [.nodes id, .positions id]) ∧
        l.api.nodes (l.calls ++ .submit name minutes asked :: polls) id = .ok nodes ∧
        l.api.positions (l.calls ++ .submit name minutes asked :: (polls ++ [.nodes id])) id =
        .ok located ∧ Serves id nodes located nodes requests es) := by
  refine ⟨fun hinvalid => ?_, fun hvalid => ?_, fun es now' l' h => ?_⟩
  · cases hdevices : requested requests site with
    | error cause =>
      refine ⟨cause, ?_⟩
      rw [reserve, hdevices]
      rfl
    | ok devices => exact absurd (exists_requested_iff.1 ⟨devices, hdevices⟩) hinvalid
  · obtain ⟨devices, hdevices⟩ := exists_requested_iff.2 hvalid
    exact ⟨devices, hdevices, resource_of_requested hdevices⟩
  · have hreserving := l.reserving requests name site minutes now horizon
    rw [h] at hreserving
    cases hreserving with
    | lost _ _ _ hlost => exact absurd rfl (hlost es)
    | @running devices asked id polls nodes located hdevices hsubmit _ hnodes hlocated =>
      exact ⟨asked, id, polls, nodes, located, hsubmit, rfl, hnodes, hlocated,
        serves_assign id located (requested_ok hdevices).2 (List.Subset.refl _)⟩

/-- The second of three requests gets nothing; on an unknown site none would. -/
theorem reserve_serves_twoNodes :
    let requests := ["dwm1001", "iotlab-m3", "dwm1001-2.lille.iot-lab.info"]
    let lease := new twoNodes (.ofSeconds 1) (.ofSeconds 10)
    (∃ cause, lease.reserve requests "exp" "paris" 120 0 10 = (.failed cause, 0, lease)) ∧
      (∃ devices, requested requests "lille" = .ok devices ∧
        ∀ e ∈ devices, ∃ asked, resource "lille" e = .ok asked) ∧
      ∃ es now l' id nodes located,
        lease.reserve requests "exp" "lille" 120 0 10 = (.value es, now, l') ∧ es.length = 2 ∧
        Serves id nodes located nodes requests es := by
  intro requests lease
  obtain ⟨hinvalid, -, -⟩ := reserve_serves lease requests "exp" "paris" 120 0 10
  obtain ⟨-, hvalid, hserves⟩ := reserve_serves lease requests "exp" "lille" 120 0 10
  obtain ⟨es, now, l', hreserve⟩ : ∃ es now l',
      lease.reserve requests "exp" "lille" 120 0 10 = (.value es, now, l') :=
    ⟨_, _, _, rfl⟩
  have hlength : es.length = 2 := by
    have hrun : (match lease.reserve requests "exp" "lille" 120 0 10 with
        | (.value es, _) => es.length
        | _ => 0) = 2 := by decide +kernel
    rwa [hreserve] at hrun
  obtain ⟨_, id, _, nodes, located, -, -, -, -, hes⟩ := hserves es now l' hreserve
  refine ⟨hinvalid fun h => absurd h.1 (by decide), hvalid (exists_requested_iff.1 ⟨_, rfl⟩), ?_⟩
  exact ⟨es, now, l', id, nodes, located, hreserve, hlength, hes⟩

end Lease

end ProximityLab.Testbed
