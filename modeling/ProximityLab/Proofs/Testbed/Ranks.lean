import ProximityLab.Proofs.Testbed.Service
import Mathlib.Data.List.Perm.Subperm

/-!
# The nodes of each board

All boards are served from one list of free nodes, and each request takes the first node of its
board. The boards do not get in each other's way, because no architecture begins with that of
another board (`boards_apart`).

- **One request** (`serve_board`, `serve_other`): it takes the first free node of its board, and
  those of the other boards stay free.
- **One board** (`address?_requestsFor`): its requests get its nodes in order, whatever is requested
  between them, so as many get one as there are (`addresses_requestsFor`).
- **All boards** (`assign_ranked`): no entry of the list is given twice.
-/

namespace ProximityLab.Testbed

/-! ## Boards -/

/-- The requests for a board, in their order. -/
def requestsFor (b : Board) (es : List Environment) : List Environment :=
  es.filter (·.board? = some b.name)

/-- The nodes of a board, in their order. -/
def nodesFor (b : Board) (nodes : List String) : List String :=
  nodes.filter (Text.startsWith b.archi)

theorem board?_eq_some {name : String} {b : Board} (h : board? name = some b) :
    b ∈ boards ∧ b.name = name :=
  ⟨List.mem_of_find?_eq_some h, by simpa using List.find?_some h⟩

theorem board?_name : ∀ b ∈ boards, board? b.name = some b := by decide

theorem name_ne_empty : ∀ b ∈ boards, b.name ≠ "" := by decide

theorem archi_apart :
    ∀ b ∈ boards, ∀ c ∈ boards, Text.startsWith b.archi c.archi = true → b = c := by
  decide +kernel

/-- An address is that of a node of one board at most. -/
theorem boards_apart {b c : Board} (hb : b ∈ boards) (hc : c ∈ boards) {address : String}
    (h : Text.startsWith b.archi address = true) (h' : Text.startsWith c.archi address = true) :
    b = c := by
  rw [Text.startsWith, List.isPrefixOf_iff_prefix] at h h'
  rcases List.prefix_or_prefix_of_prefix h h' with hpre | hpre
  · exact archi_apart b hb c hc (List.isPrefixOf_iff_prefix.2 hpre)
  · exact (archi_apart c hc b hb (List.isPrefixOf_iff_prefix.2 hpre)).symm

/-- The board of a node that a request can take is the one that it names. -/
theorem board_of_isAddressOf {e : Environment} {address : String}
    (h : isAddressOf (e.board?.getD "") address = true) :
    ∃ b ∈ boards, e.board? = some b.name ∧ Text.startsWith b.archi address = true := by
  rw [isAddressOf, Option.any_eq_true] at h
  obtain ⟨b, hboard, harchi⟩ := h
  obtain ⟨hb, hname⟩ := board?_eq_some hboard
  refine ⟨b, hb, ?_, harchi⟩
  cases hrequest : e.board? with
  | none =>
    rw [hrequest] at hname
    exact absurd hname (name_ne_empty b hb)
  | some name =>
    rw [hrequest, Option.getD_some] at hname
    rw [hname]

/-! ## One request -/

section Request

variable {b : Board} {e : Environment} (free : List String)

theorem choice?_of_board (hb : b ∈ boards) (hrequest : e.board? = some b.name) :
    choice? free e = takeFirst (Text.startsWith b.archi) free := by
  rw [choice?, hrequest, Option.getD_some, isAddressOf_eq (board?_name b hb)]

/-- A request for a board gets the first free node of it, which is not free then. -/
theorem serve_board (hb : b ∈ boards) (haddress : address? e = none)
    (hrequest : e.board? = some b.name) :
    given? free e = (nodesFor b free).head? ∧
      nodesFor b (assignOne free e).2 = (nodesFor b free).tail := by
  cases hchoice : choice? free e with
  | none =>
    have hnone : nodesFor b free = [] := by
      rw [choice?_of_board free hb hrequest] at hchoice
      simpa [nodesFor] using takeFirst_eq_none hchoice
    rw [given?, assignOne_of_none haddress hchoice, haddress, hnone]
    exact ⟨rfl, rfl⟩
  | some taken =>
    obtain ⟨a, rest⟩ := taken
    rw [given?_of_choice haddress hchoice, assignOne_of_taken haddress hchoice]
    rw [choice?_of_board free hb hrequest] at hchoice
    obtain ⟨ha, before, after, rfl, rfl, hbefore⟩ := takeFirst_eq_some hchoice
    have hskip : before.filter (Text.startsWith b.archi) = [] := by simpa using hbefore
    simp [nodesFor, hskip, ha]

/-- The nodes of other boards stay free. -/
theorem serve_other (hb : b ∈ boards) (haddress : address? e = none)
    (hrequest : e.board? ≠ some b.name) :
    nodesFor b (assignOne free e).2 = nodesFor b free := by
  cases hchoice : choice? free e with
  | none => rw [assignOne_of_none haddress hchoice]
  | some taken =>
    obtain ⟨a, rest⟩ := taken
    rw [assignOne_of_taken haddress hchoice]
    obtain ⟨ha, before, after, rfl, rfl, -⟩ := takeFirst_eq_some hchoice
    obtain ⟨c, hc, hname, harchi⟩ := board_of_isAddressOf ha
    have hother : Text.startsWith b.archi a = false := by
      rw [Bool.eq_false_iff]
      intro h
      obtain rfl := boards_apart hb hc h harchi
      exact hrequest hname
    simp [nodesFor, hother]

/-- A request that names no board gets nothing. -/
theorem given?_of_unknown (haddress : address? e = none)
    (hunknown : ∀ b ∈ boards, e.board? ≠ some b.name) :
    given? free e = none := by
  obtain hkept | ⟨a, rest, -, hchoice, -, -⟩ := given?_cases free e
  · rw [hkept, haddress]
  · obtain ⟨c, hc, hname, -⟩ := board_of_isAddressOf (takeFirst_spec hchoice).1
    exact absurd hname (hunknown c hc)

theorem board?_assignOne (e : Environment) : (assignOne free e).1.board? = e.board? := by
  cases haddress : address? e with
  | some a => rw [assignOne_of_address haddress]
  | none =>
    cases hchoice : choice? free e with
    | none => rw [assignOne_of_none haddress hchoice]
    | some taken =>
      rw [assignOne_of_taken haddress hchoice]
      exact Variables.get?_set_of_ne _ (by decide)

end Request

/-! ## All requests -/

theorem filterMap_range_getElem? {α : Type} (as : List α) (n : Nat) :
    (List.range n).filterMap (fun i => as[i]?) = as.take n := by
  induction n with
  | zero => rfl
  | succ n ih =>
    rw [List.range_succ, List.filterMap_append, ih, List.take_add_one]
    cases h : as[n]? <;> simp [h]

/-- The first environment of an assignment is for the board that is requested first, and has what
that is given. -/
theorem assign_cons (id : Nat) (free : List String) (e : Environment) (es : List Environment) :
    ∃ e', assign id free (e :: es) = e' :: assign id (assignOne free e).2 es ∧
      e'.board? = e.board? ∧ address? e' = given? free e := by
  refine ⟨_, rfl, (Variables.get?_set_of_ne _ ?_).trans (board?_assignOne free e),
    address?_set_of_ne _ ?_ _⟩
  · decide
  · decide

theorem board?_assign (id : Nat) (free : List String) (es : List Environment) :
    (assign id free es).map Environment.board? = es.map Environment.board? := by
  induction es generalizing free with
  | nil => rfl
  | cons e es ih =>
    obtain ⟨e', hassign, hboard, -⟩ := assign_cons id free e es
    rw [hassign, List.map_cons, List.map_cons, hboard, ih]

section Requests

variable {es : List Environment} (hes : ∀ e ∈ es, address? e = none) (id : Nat) (free : List String)
include hes

/-- The requests for a board get its nodes in order, as long as there are any. -/
theorem address?_requestsFor {b : Board} (hb : b ∈ boards) :
    (requestsFor b (assign id free es)).map address? =
      (List.range (requestsFor b es).length).map fun i => (nodesFor b free)[i]? := by
  induction es generalizing free with
  | nil => rfl
  | cons e es ih =>
    obtain ⟨haddress, hes⟩ := List.forall_mem_cons.1 hes
    obtain ⟨e', hassign, hboard, hgiven⟩ := assign_cons id free e es
    rw [hassign]
    by_cases hrequest : e.board? = some b.name
    · obtain ⟨hhead, htail⟩ := serve_board free hb haddress hrequest
      have hserved : requestsFor b (e' :: assign id (assignOne free e).2 es) =
          e' :: requestsFor b (assign id (assignOne free e).2 es) :=
        List.filter_cons_of_pos (by simpa [hboard] using hrequest)
      have hrequests : requestsFor b (e :: es) = e :: requestsFor b es :=
        List.filter_cons_of_pos (by simpa using hrequest)
      rw [hserved, hrequests, List.map_cons, ih hes, htail, hgiven, hhead, List.length_cons,
        List.range_succ_eq_map]
      simp [List.head?_eq_getElem?]
    · have hserved : requestsFor b (e' :: assign id (assignOne free e).2 es) =
          requestsFor b (assign id (assignOne free e).2 es) :=
        List.filter_cons_of_neg (by simpa [hboard] using hrequest)
      have hrequests : requestsFor b (e :: es) = requestsFor b es :=
        List.filter_cons_of_neg (by simpa using hrequest)
      rw [hserved, hrequests, ih hes, serve_other free hb haddress hrequest]

/-- The nodes that are given for a board are the first of it, one for each request. -/
theorem addresses_requestsFor {b : Board} (hb : b ∈ boards) :
    addresses (requestsFor b (assign id free es)) =
      (nodesFor b free).take (requestsFor b es).length := by
  have hgiven : addresses (requestsFor b (assign id free es)) =
      ((requestsFor b (assign id free es)).map address?).filterMap fun a => a := by
    rw [List.filterMap_map]
    rfl
  rw [hgiven, address?_requestsFor hes id free hb, List.filterMap_map]
  exact filterMap_range_getElem? ..

/-- Each entry of the list of nodes is given once at most. -/
theorem subperm_assign : (addresses (assign id free es)).Subperm free := by
  induction es generalizing free with
  | nil => exact List.nil_subperm
  | cons e es ih =>
    obtain ⟨haddress, hes⟩ := List.forall_mem_cons.1 hes
    have hrest := ih hes (assignOne free e).2
    rw [addresses_assign_cons]
    cases hchoice : choice? free e with
    | none =>
      rw [given?, assignOne_of_none haddress hchoice, haddress]
      rw [assignOne_of_none haddress hchoice] at hrest
      exact hrest
    | some taken =>
      obtain ⟨a, rest⟩ := taken
      obtain ⟨-, ha, hleft⟩ := takeFirst_spec hchoice
      rw [given?_of_choice haddress hchoice, assignOne_of_taken haddress hchoice]
      rw [assignOne_of_taken haddress hchoice, hleft] at hrest
      rw [hleft]
      exact ((List.subperm_cons a).2 hrest).trans (List.perm_cons_erase ha).symm.subperm

theorem address?_assign_of_unknown :
    ∀ e ∈ assign id free es, (∀ b ∈ boards, e.board? ≠ some b.name) → address? e = none := by
  induction es generalizing free with
  | nil => exact fun _ => nofun
  | cons e es ih =>
    obtain ⟨haddress, hes⟩ := List.forall_mem_cons.1 hes
    obtain ⟨e', hassign, hboard, hgiven⟩ := assign_cons id free e es
    rw [hassign, List.forall_mem_cons]
    refine ⟨fun hunknown => ?_, ih hes _⟩
    rw [hboard] at hunknown
    rw [hgiven, given?_of_unknown free haddress hunknown]

end Requests

/-- **The nodes of each board.** If no request is for an address, the environments are those of the
requests in their order, and of the requests for a board the first gets the first node of that
board, the second the second, and so on until there are no more. No entry of the list of nodes is
given twice, and as many requests for a board get a node as there are of both. -/
theorem assign_ranked (id : Nat) (nodes : List String) {es : List Environment}
    (hes : ∀ e ∈ es, address? e = none) :
    (assign id nodes es).map Environment.board? = es.map Environment.board? ∧
      (∀ b ∈ boards, (requestsFor b (assign id nodes es)).map address? =
        (List.range (requestsFor b es).length).map fun i => (nodesFor b nodes)[i]?) ∧
      (∀ e ∈ assign id nodes es, (∀ b ∈ boards, e.board? ≠ some b.name) → address? e = none) ∧
      (addresses (assign id nodes es)).Subperm nodes ∧
      ∀ b ∈ boards, (addresses (requestsFor b (assign id nodes es))).length =
        min (requestsFor b es).length (nodesFor b nodes).length := by
  refine ⟨board?_assign id nodes es, fun b hb => address?_requestsFor hes id nodes hb,
    address?_assign_of_unknown hes id nodes, subperm_assign hes id nodes, fun b hb => ?_⟩
  rw [addresses_requestsFor hes id nodes hb, List.length_take]

/-- Of three requests for a board the last gets no node, since there are two. A request for another
board stands between them, and its node in front. -/
theorem assign_ranked_mixed :
    let es := ["dwm1001", "iotlab-m3", "dwm1001", "dwm1001"].map
      (Environment.empty.set Environment.boardVar ·)
    let nodes :=
      ["m3-102.lille.iot-lab.info", "dwm1001-7.lille.iot-lab.info", "dwm1001-3.lille.iot-lab.info"]
    (∀ e ∈ es, address? e = none) ∧ ∃ b ∈ boards, b.name = "dwm1001" ∧
      (requestsFor b (assign 12345 nodes es)).map address? =
        [some "dwm1001-7.lille.iot-lab.info", some "dwm1001-3.lille.iot-lab.info", none] := by
  intro es nodes
  have hes : ∀ e ∈ es, address? e = none := by decide
  have hb : (⟨"dwm1001", "dwm1001", "dw1000"⟩ : Board) ∈ boards := by decide
  refine ⟨hes, _, hb, rfl, ((assign_ranked 12345 nodes hes).2.1 _ hb).trans ?_⟩
  decide

end ProximityLab.Testbed
