import ProximityLab.Testbed.Reservation
import ProximityLab.Proofs.Lists

/-!
# What reserving does

- **Requests**: a request is for a board, or for an address that says which board it is
  (`requestedDevice_cases`). The testbed can be asked for all devices of valid requests
  (`resource_of_requested`).
- **Waiting**: only the state of the reservation is asked for (`pollWithin_polls`).
- **Reserving**: `Lease.Reserving` has the ways that a reservation can go, with the calls that are
  made on each of them. There is no other (`Lease.reserving`).
-/

namespace ProximityLab.Testbed

/-! ## Requests -/

/-- The site can be asked for a board or for a node at this address. -/
def Valid (site request : String) : Prop :=
  (board? request).isSome ∨ Text.contains site request = true ∧ ∃ b, boardOfAddress request = .ok b

/-- A request is for a board, or for an address on the site that says which board it is. -/
theorem requestedDevice_cases {site r : String} {e : Environment}
    (h : requestedDevice site r = .ok e) :
    (∃ b, board? r = some b ∧ e = Environment.empty.set Environment.boardVar r) ∨
      ∃ b, board? r = none ∧ Text.contains site r = true ∧ boardOfAddress r = .ok b ∧
        e = (Environment.empty.set Environment.addressVar r).set Environment.boardVar b.name := by
  unfold requestedDevice checkAddress at h
  cases hboard : board? r with
  | some b =>
    rw [hboard] at h
    cases h
    exact .inl ⟨b, rfl, rfl⟩
  | none =>
    cases hsite : Text.contains site r with
    | false => simp [hboard, hsite, bind, Except.bind, throw, throwThe, MonadExceptOf.throw] at h
    | true =>
      cases haddress : boardOfAddress r with
      | error cause => simp [hboard, hsite, haddress, bind, Except.bind, pure, Except.pure] at h
      | ok b =>
        simp only [hboard, hsite, haddress, bind, Except.bind, pure, Except.pure,
          Option.isSome_none, Bool.false_eq_true, Bool.not_true, if_false] at h
        cases h
        exact .inr ⟨b, rfl, rfl, rfl, rfl⟩

/-- The valid requests are those that are accepted. -/
theorem exists_requestedDevice_iff {site r : String} :
    (∃ e, requestedDevice site r = .ok e) ↔ Valid site r := by
  constructor
  · rintro ⟨e, h⟩
    obtain ⟨b, hboard, -⟩ | ⟨b, -, hsite, haddress, -⟩ := requestedDevice_cases h
    · exact .inl (hboard ▸ rfl)
    · exact .inr ⟨hsite, b, haddress⟩
  · intro h
    unfold requestedDevice checkAddress
    by_cases hboard : (board? r).isSome = true
    · exact ⟨_, if_pos hboard⟩
    · obtain ⟨hsite, b, haddress⟩ := h.resolve_left hboard
      refine ⟨(Environment.empty.set Environment.addressVar r).set Environment.boardVar b.name, ?_⟩
      simp [hboard, hsite, haddress, bind, Except.bind, pure, Except.pure]

theorem mapM_of_forall {α β ε : Type} {f : α → Except ε β} {as : List α}
    (h : ∀ a ∈ as, ∃ b, f a = .ok b) :
    ∃ bs, as.mapM f = .ok bs := by
  induction as with
  | nil => exact ⟨[], rfl⟩
  | cons a as ih =>
    obtain ⟨⟨b, hb⟩, hrest⟩ := List.forall_mem_cons.1 h
    obtain ⟨bs, hbs⟩ := ih hrest
    exact ⟨b :: bs, by rw [List.mapM_cons, hb, hbs]; rfl⟩

/-- Each request has the environment of its device, and the site is known. -/
theorem requested_eq_ok_iff {requests : List String} {site : String} {es : List Environment} :
    requested requests site = .ok es ↔
      site ∈ sites ∧ List.Forall₂ (fun r e => requestedDevice site r = .ok e) requests es := by
  unfold requested checkSite
  by_cases hsite : site ∈ sites
  · rw [if_pos (List.contains_iff_mem.2 hsite)]
    exact mapM_eq_ok_iff.trans (and_iff_right hsite).symm
  · rw [if_neg (fun hc => hsite (List.contains_iff_mem.1 hc))]
    exact iff_of_false nofun fun h => hsite h.1

theorem requested_ok {requests : List String} {site : String} {es : List Environment}
    (h : requested requests site = .ok es) :
    site ∈ sites ∧ List.Forall₂ (fun r e => requestedDevice site r = .ok e) requests es :=
      requested_eq_ok_iff.1 h

/-- Requests are accepted if all of them and the site are valid. -/
theorem exists_requested_iff {requests : List String} {site : String} :
    (∃ es, requested requests site = .ok es) ↔ site ∈ sites ∧ ∀ r ∈ requests, Valid site r := by
  constructor
  · rintro ⟨es, h⟩
    obtain ⟨hsite, hdevices⟩ := requested_ok h
    have hvalid := hdevices.imp fun r e hr => And.intro (exists_requestedDevice_iff.1 ⟨e, hr⟩) hr
    exact ⟨hsite, ((List.forall₂_and_left _ _).1 hvalid).1⟩
  · rintro ⟨hsite, hvalid⟩
    unfold requested checkSite
    rw [if_pos (List.contains_iff_mem.2 hsite)]
    exact mapM_of_forall fun r hr => exists_requestedDevice_iff.2 (hvalid r hr)

/-- The board of a device has no part in its address. -/
theorem get?_addressVar_addressed (address board : String) :
    ((Environment.empty.set Environment.addressVar address).set Environment.boardVar board).get?
      Environment.addressVar = some address :=
  Variables.get?_set_of_ne _ (by decide) ..

/-- The testbed can be asked for the device of a request that is accepted. -/
theorem resource_requestedDevice {site r : String} {e : Environment}
    (h : requestedDevice site r = .ok e) :
    ∃ asked, resource site e = .ok asked := by
  obtain ⟨b, hboard, rfl⟩ | ⟨b, -, -, -, rfl⟩ := requestedDevice_cases h
  · refine ⟨.kind b.resourceName site, ?_⟩
    unfold resource
    rw [show (Environment.empty.set Environment.boardVar r).get? Environment.addressVar =
      none from rfl, show (Environment.empty.set Environment.boardVar r).board? = some r from rfl]
    dsimp only [Option.getD_some]
    rw [hboard]
  · exact ⟨.node r, by rw [resource, get?_addressVar_addressed]⟩

theorem resource_of_requested {requests : List String} {site : String} {es : List Environment}
    (h : requested requests site = .ok es) : ∀ e ∈ es, ∃ asked, resource site e = .ok asked := by
  obtain ⟨-, hdevices⟩ := requested_ok h
  have hasked := hdevices.flip.imp fun e r hr => And.intro (resource_requestedDevice hr) hr
  exact ((List.forall₂_and_left _ _).1 hasked).1

/-! ## Waiting -/

/-- The call asks about the reservation, and changes nothing. -/
def ApiCall.IsQuery (id : Nat) (call : ApiCall) : Prop :=
  call = .state id ∨ call = .nodes id ∨ call = .positions id

namespace Lease

/-- Waiting asks for the state of the reservation, and for nothing else. -/
theorem pollWithin_polls (id start horizon fuel now : Nat) (l : Lease) :
    ∃ polls, (pollWithin id start horizon fuel now l).2.2 = { l with calls := l.calls ++ polls } ∧
      ∀ call ∈ polls, call = .state id := by
  induction fuel generalizing now l with
  | zero => exact ⟨[], by simp [pollWithin]⟩
  | succ fuel ih =>
    have hone : ∃ polls, l.log (.state id) = { l with calls := l.calls ++ polls } ∧
        ∀ call ∈ polls, call = .state id :=
      ⟨[.state id], rfl, by simp⟩
    rw [pollWithin]
    dsimp only
    split
    · exact hone
    · split_ifs
      · exact hone
      · exact hone
      · exact hone
      · exact hone
      · obtain ⟨polls, hl, hpolls⟩ := ih (now + l.poll.millisUp) (l.log (.state id))
        refine ⟨.state id :: polls, ?_, List.forall_mem_cons.2 ⟨rfl, hpolls⟩⟩
        dsimp only [log] at hl ⊢
        rw [hl, List.append_assoc, List.singleton_append]

/-! ## Reserving -/

/-- The nodes of a reservation and then their positions are asked for, unless the nodes are not
given. -/
theorem collect_cases (id : Nat) (devices : List Environment) (l : Lease) :
    (∃ cause queries, l.collect id devices =
      (.error cause, { l with calls := l.calls ++ queries }) ∧ ∀ call ∈ queries, call.IsQuery id) ∨
    ∃ nodes located, l.api.nodes l.calls id = .ok nodes ∧
      l.api.positions (l.calls ++ [.nodes id]) id = .ok located ∧
        l.collect id devices =
        (.ok (locate located (assign id nodes devices)),
          { l with calls := l.calls ++ [.nodes id, .positions id] }) := by
  have hnodesQuery : (ApiCall.nodes id).IsQuery id := .inr (.inl rfl)
  have hpositionsQuery : (ApiCall.positions id).IsQuery id := .inr (.inr rfl)
  unfold collect
  cases hnodes : l.api.nodes l.calls id with
  | error cause => exact .inl ⟨cause, [.nodes id], rfl, by simp [hnodesQuery]⟩
  | ok nodes =>
    dsimp only [log]
    rw [List.append_assoc]
    cases hlocated : l.api.positions (l.calls ++ [.nodes id]) id with
    | error cause =>
      exact .inl ⟨cause, [.nodes id, .positions id], rfl, by simp [hnodesQuery, hpositionsQuery]⟩
    | ok located => exact .inr ⟨nodes, located, rfl, rfl, rfl⟩

/-- The ways that reserving can go, with what it ends with and the lease that it leaves. -/
inductive Reserving (requests : List String) (name site : String) (minutes : Nat) (l : Lease) :
    Waited (List Environment) → Lease → Prop where
  /-- The requests are not accepted, and the testbed is not asked. -/
  | invalid {cause : TestbedError} (h : requested requests site = .error cause) :
      Reserving requests name site minutes l (.failed cause) l
  | refused {devices : List Environment} {asked : List Resource} {cause : TestbedError}
      (hdevices : requested requests site = .ok devices)
      (hsubmit : l.api.submit l.calls name minutes asked = .error cause) :
      Reserving requests name site minutes l (.failed cause) (l.log (.submit name minutes asked))
  /-- The reservation was made, but it did not run or could not be asked about. -/
  | lost {devices : List Environment} {asked : List Resource} {id : Nat} {queries : List ApiCall}
      {w : Waited (List Environment)} (hdevices : requested requests site = .ok devices)
      (hsubmit : l.api.submit l.calls name minutes asked = .ok id)
      (hqueries : ∀ call ∈ queries, call.IsQuery id) (hlost : ∀ es, w ≠ .value es) :
      Reserving requests name site minutes l w
        { l with held := some id, calls := l.calls ++ .submit name minutes asked :: queries }
  /-- The reservation runs and has nodes for the devices. -/
  | running {devices : List Environment} {asked : List Resource} {id : Nat} {polls : List ApiCall}
      {nodes : List String} {located : List Located}
      (hdevices : requested requests site = .ok devices)
      (hsubmit : l.api.submit l.calls name minutes asked = .ok id)
      (hpolls : ∀ call ∈ polls, call = .state id)
      (hnodes : l.api.nodes (l.calls ++ .submit name minutes asked :: polls) id = .ok nodes)
      (hlocated : l.api.positions (l.calls ++
        .submit name minutes asked :: (polls ++ [.nodes id])) id = .ok located) :
      Reserving requests name site minutes l (.value (locate located (assign id nodes devices)))
        { l with
          held := some id
          calls := l.calls ++ .submit name minutes asked :: (polls ++ [.nodes id, .positions id]) }

theorem reserving (l : Lease) (requests : List String) (name site : String)
    (minutes now horizon : Nat) :
    Reserving requests name site minutes l (l.reserve requests name site minutes now horizon).1
      (l.reserve requests name site minutes now horizon).2.2 := by
  unfold reserve
  cases hdevices : requested requests site with
  | error cause => exact .invalid hdevices
  | ok devices =>
    obtain ⟨asked, hasked⟩ := mapM_of_forall (resource_of_requested hdevices)
    simp only [hasked, bind, Except.bind, pure, Except.pure]
    cases hsubmit : l.api.submit l.calls name minutes asked with
    | error cause => exact .refused hdevices hsubmit
    | ok id =>
      have hwait := pollWithin_polls id now horizon (horizon - now + 2) now
        { l.log (.submit name minutes asked) with held := some id }
      dsimp only [waitRunning]
      generalize pollWithin id now horizon (horizon - now + 2) now
        { l.log (.submit name minutes asked) with held := some id } = r at hwait ⊢
      obtain ⟨w, now', l'⟩ := r
      obtain ⟨polls, hl, hpolls⟩ := hwait
      have hqueries : ∀ call ∈ polls, call.IsQuery id := fun call hcall => .inl (hpolls call hcall)
      dsimp only [log] at hl
      rw [List.append_assoc, List.singleton_append] at hl
      subst hl
      cases w with
      | failed cause => exact .lost hdevices hsubmit hqueries nofun
      | hung => exact .lost hdevices hsubmit hqueries nofun
      | value done =>
        dsimp only
        obtain ⟨cause, queries, hcollect, hmore⟩ | ⟨nodes, located, hnodes, hlocated, hcollect⟩ :=
          collect_cases id devices
            { l with held := some id, calls := l.calls ++ .submit name minutes asked :: polls }
        · dsimp only at hcollect
          rw [List.append_assoc, List.cons_append] at hcollect
          rw [hcollect]
          exact .lost hdevices hsubmit (List.forall_mem_append.2 ⟨hqueries, hmore⟩) nofun
        · dsimp only at hcollect hlocated
          rw [List.append_assoc, List.cons_append] at hcollect hlocated
          rw [hcollect]
          exact .running hdevices hsubmit hpolls hnodes hlocated

end Lease

end ProximityLab.Testbed
