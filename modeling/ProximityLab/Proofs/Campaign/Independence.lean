import ProximityLab.Proofs.Campaign.Rounds

/-!
# The nodes of a campaign do not depend on each other

`run_independent`: what a campaign makes of a node is what it makes of it alone, begun at the same
moment with the same stop signal, in whatever company and at whatever place. It does not matter
either in which order the waits for the nodes go on: every schedule in which all nodes leave the
campaign leaves the same nodes, and every schedule that gives each node turns enough is one.
-/

namespace ProximityLab

namespace Campaign

variable {c : Campaign} {now cut : Nat} {stop : Option Nat} {nodes : List Node}

/-- A node is left alone as it is left in company. -/
theorem run_alone {n : Node} (hidle : ∀ n ∈ nodes, n.phase.inFlight = false)
    (hrun : (c.run now cut stop nodes).ending ≠ .overflow) (hn : n ∈ nodes) :
    (c.run now cut stop [n]).ending ≠ .overflow ∧
      (c.run now cut stop [n]).nodes = [c.resolve now cut stop n] := by
  have hidle' : ∀ m ∈ [n], m.phase.inFlight = false := by simpa using hidle n hn
  have hover : (c.run now cut stop [n]).ending ≠ .overflow := fun h => by
    refine hrun (((c.run_spec now cut stop hidle).1).2 ?_)
    refine (((c.run_spec now cut stop hidle').1).1 h).imp_right ?_
    rintro ⟨m, hm, ho⟩
    obtain rfl := List.mem_singleton.1 hm
    exact ⟨m, hn, ho⟩
  exact ⟨hover, ((c.run_spec now cut stop hidle').2 hover).2⟩

/-! ## Schedules -/

/-- A number of rounds after which all nodes have left. -/
theorem exists_turns (c : Campaign) (now cut : Nat) (stop : Option Nat) (nodes : List Node) :
    ∃ turns, ∀ n ∈ nodes, ∀ k, turns ≤ k →
      Stage.round^[k] (c.stage now cut stop n) = .left (c.resolve now cut stop n) := by
  induction nodes with
  | nil => exact ⟨0, by simp⟩
  | cons n nodes ih =>
    obtain ⟨turns, hturns⟩ := ih
    obtain ⟨k, hk⟩ : Stage.Leads (c.stage now cut stop n) (.left (c.resolve now cut stop n)) :=
      Stage.leads_resolve _ (c.startNode now n)
    refine ⟨turns + k, fun m hm l hl => ?_⟩
    rcases List.mem_cons.1 hm with rfl | hm
    · obtain ⟨j, rfl⟩ : ∃ j, l = j + k := ⟨l - k, by omega⟩
      rw [Function.iterate_add_apply, hk, Stage.iterate_round_left]
    · exact hturns m hm l (by omega)

/-- Schedules that give each node turns enough let all nodes leave the campaign. -/
theorem interleave_of_turns (c : Campaign) (now cut : Nat) (stop : Option Nat) (nodes : List Node) :
    ∃ turns, ∀ schedule : List Nat, (∀ i < nodes.length, turns ≤ schedule.count i) →
      interleave schedule (c.stages now cut stop nodes) =
        (nodes.map (c.resolve now cut stop)).map .left := by
  obtain ⟨turns, hturns⟩ := c.exists_turns now cut stop nodes
  refine ⟨turns, fun schedule hs => List.ext_getElem? fun i => ?_⟩
  rw [interleave_getElem?, stages, List.map_map, List.getElem?_map, List.getElem?_map,
    Option.map_map]
  cases hi : nodes[i]? with
  | none => rfl
  | some n =>
    obtain ⟨hlt, rfl⟩ := List.getElem?_eq_some_iff.1 hi
    exact congrArg some (hturns _ (List.getElem_mem hlt) _ (hs i hlt))

/-- No schedule lets a node leave the campaign in another way. -/
theorem eq_of_interleave {schedule : List Nat} {left : List Node}
    (h : interleave schedule (c.stages now cut stop nodes) = left.map .left) :
    left = nodes.map (c.resolve now cut stop) := by
  obtain ⟨turns, hturns⟩ := c.exists_turns now cut stop nodes
  refine List.ext_getElem? fun i => ?_
  have hi := congrArg (·[i]?) h
  simp only [interleave_getElem?, stages, List.getElem?_map, Option.map_map] at hi ⊢
  cases hn : nodes[i]? with
  | none =>
    rw [hn] at hi
    rw [Option.map_eq_none_iff.1 hi.symm]
    rfl
  | some n =>
    rw [hn, Option.map_some] at hi
    obtain ⟨m, hm, hleft⟩ := Option.map_eq_some_iff.1 hi.symm
    dsimp only [Function.comp_apply] at hleft
    -- a node that has left stays as it is, however many rounds follow
    have hmore := hturns n (List.mem_of_getElem? hn) (turns + schedule.count i) (by omega)
    rw [Function.iterate_add_apply, ← hleft, Stage.iterate_round_left] at hmore
    rw [hm, Option.map_some, Stage.left.inj hmore]

/-- What a campaign makes of a node depends neither on the other nodes nor on the order in which the
nodes take their turns. -/
theorem run_independent (hidle : ∀ n ∈ nodes, n.phase.inFlight = false)
    (hrun : (c.run now cut stop nodes).ending ≠ .overflow) :
    (c.run now cut stop nodes).nodes.length = nodes.length ∧
      (∀ (i : Nat) (n : Node), nodes[i]? = some n →
        ∃ n', (c.run now cut stop nodes).nodes[i]? = some n' ∧
        (c.run now cut stop [n]).ending ≠ .overflow ∧ (c.run now cut stop [n]).nodes = [n']) ∧
      (∀ schedule left, interleave schedule (c.stages now cut stop nodes) = left.map .left →
        left = (c.run now cut stop nodes).nodes) ∧
      ∃ turns, ∀ schedule : List Nat, (∀ i < nodes.length, turns ≤ schedule.count i) →
        interleave schedule (c.stages now cut stop nodes) =
          (c.run now cut stop nodes).nodes.map .left := by
  have hnodes := ((c.run_spec now cut stop hidle).2 hrun).2
  rw [hnodes]
  refine ⟨List.length_map _, fun i n hn => ?_, fun schedule left h => eq_of_interleave h,
    c.interleave_of_turns now cut stop nodes⟩
  refine ⟨c.resolve now cut stop n, by rw [List.getElem?_map, hn]; rfl, ?_⟩
  exact run_alone hidle hrun (List.mem_of_getElem? hn)

/-- A node that is silent, one that gives its prompt back, and one that cannot be started. -/
def mixedNodes : List Node :=
  [.new (.opened 0 (.uniform (.accepted []) none)) "silent" none,
    .new (.opened 0 (.uniform (.accepted [⟨5, .line "started"⟩, ⟨9, .line prompt⟩]) none))
      "quick" none,
    .new (.opened 0 (.uniform (.refused .closed) none)) "deaf" none]

theorem run_independent_mixed :
    let c : Campaign := ⟨.default, .ofMillis 50, .ofSeconds 1⟩
    ∃ n', (c.run 0 10000 (some 700) mixedNodes).nodes[1]? = some n' ∧
      (c.run 0 10000 (some 700) [mixedNodes[1]]).nodes = [n'] ∧
      n'.record.outcome = some .completed := by
  intro c
  have hrun : (c.run 0 10000 (some 700) mixedNodes).ending ≠ .overflow := by decide +kernel
  obtain ⟨-, hsame, -⟩ := run_independent (by decide +kernel) hrun
  obtain ⟨n', hn', -, halone⟩ := hsame 1 mixedNodes[1] rfl
  have houtcome : (c.run 0 10000 (some 700) mixedNodes).nodes[1]?.map (·.record.outcome) =
      some (some .completed) := by decide +kernel
  rw [hn'] at houtcome
  exact ⟨n', hn', halone, Option.some.inj houtcome⟩

end Campaign

end ProximityLab
