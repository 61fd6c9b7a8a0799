import ProximityLab.Proofs.Experiment.Cases
import ProximityLab.Proofs.Experiment.Sync
import ProximityLab.Proofs.Provisioning.Custody
import ProximityLab.Proofs.Provisioning.Invariant

/-!
# An experiment cleans up

The nodes of an experiment work with copies of the fleet's terminals (`Fleet.Lends`). Whatever
happens to them (`syncAll`, a campaign), what is given back was not closed meanwhile, so that
custody of the terminals is kept by each part of the course and in the end by all of it
(`execute_spec`). `tearDown` then finds each terminal either closed or registered.

`run_cleans_up`: however an experiment ends, unless it is given up while it waits, nothing is
registered any more, each terminal was closed once, and the devices were released once, after that.
-/

namespace ProximityLab

open Campaign (Uses)

namespace Fleet

/-- The nodes hold terminals that were closed as often as those of the fleet. -/
def Lends (f : Fleet) (nodes : List Node) : Prop :=
  ∀ i n, nodes[i]? = some n → n.terminal.closes = f.closesOf i

variable {held : List Nat} {f : Fleet} {nodes nodes' : List Node}

/-- The use of nodes closes nothing. -/
theorem Lends.uses (h : f.Lends nodes) (hu : List.Forall₂ Uses nodes nodes') : f.Lends nodes' := by
  obtain ⟨hlen, hget⟩ := List.forall₂_iff_get.1 hu
  intro i n' hn'
  obtain ⟨hi', rfl⟩ := List.getElem?_eq_some_iff.1 hn'
  have hi : i < nodes.length := hlen ▸ hi'
  exact (hget i hi hi').closes.trans (h i _ (List.getElem?_eq_getElem hi))

/-- Taking back the terminals of nodes keeps custody and the counts of closings. -/
theorem Custody.takeBack (h : Custody held f) (hl : f.Lends nodes) :
    Custody held (f.takeBack nodes) ∧ ∀ i, (f.takeBack nodes).closesOf i = f.closesOf i := by
  refine keeps_takeBack (I := fun g => Custody held g ∧
    ∀ i, g.closesOf i = f.closesOf i) ⟨h, fun _ => rfl⟩ ?_
  rintro g i n hn ⟨hg, hcloses⟩
  have hback : n.terminal.closes = g.closesOf i := (hl i n hn).trans (hcloses i).symm
  exact ⟨hg.giveBack hback, fun j => ((g.giveBack_spec hback).1 j).trans (hcloses j)⟩

end Fleet

namespace Experiment

/-! ## The parts of the course -/

theorem custody_provisionAll (c : Configuration) (now : Nat) (es : List Environment) {f : Fleet}
    (h : Fleet.Custody [] f) : Fleet.Custody [] (provisionAll c now es f).2 := by
  induction es generalizing f with
  | nil => exact h
  | cons e es ih =>
    unfold provisionAll
    split
    · exact h
    · rename_i node _
      have hp := h.provision now (e.set Environment.termlogVar (c.termlogPath node))
      have hnone : Fleet.HandsOver (fun _ => [])
          (f.provision now (e.set Environment.termlogVar (c.termlogPath node))) := by
        unfold Fleet.HandsOver
        split <;> rename_i heq <;> rw [heq] at hp <;> exact hp
      exact Fleet.Custody.andThen hnone fun _ g hg => ih hg

/-- The nodes start with the terminals of the fleet. -/
theorem lends_nodesOf (es : List Environment) (f : Fleet) : f.Lends (nodesOf es f) := by
  intro i n hn
  obtain ⟨e, c, -, hc, rfl⟩ := List.getElem?_zipWith_eq_some.1 hn
  rw [Fleet.closesOf, hc]
  rfl

variable {σ : Type} {k k' : Course σ}

/-- A part of the course keeps custody of all terminals and leaves the source alone. -/
structure Keeps (k k' : Course σ) : Prop where
  custody : Fleet.Custody [] k'.fleet
  source : k'.source = k.source

theorem keeps_campaign (c : Configuration) (o : Circumstances) {nodes : List Node}
    (h : Fleet.Custody [] k.fleet) (hl : k.fleet.Lends nodes) :
    Keeps k (campaign c o nodes k).2 := by
  unfold campaign
  split
  · exact ⟨h, rfl⟩
  · rename_i slack _
    obtain ⟨hstarted, hnodes⟩ := Campaign.uses_run ⟨c.params, slack, c.graceSpan⟩ k.now o.horizon
      (o.stop.moment o.start k.now) nodes
    have hl' := hl.uses hstarted
    obtain ⟨hk, hcloses⟩ := h.takeBack hl'
    have hback := hk.takeBack fun i n hn => ((hl'.uses hnodes) i n hn).trans (hcloses i).symm
    dsimp only
    split <;> exact ⟨hback.1, rfl⟩

theorem keeps_operate (c : Configuration) (o : Circumstances) {nodes : List Node}
    (h : Fleet.Custody [] k.fleet) (hl : k.fleet.Lends nodes) :
    Keeps k (operate c o nodes k).2 := by
  rcases hop : operate c o nodes k with ⟨result, k'⟩
  unfold operate at hop
  dsimp only at hop ⊢
  split at hop
  · obtain rfl := (Prod.mk.inj hop).2
    exact ⟨h, rfl⟩
  · have hu := uses_syncAll c.commandSpan o (k.now + c.settleSpan.millisUp) nodes
    generalize syncAll c.commandSpan o (k.now + c.settleSpan.millisUp) nodes = r at hop hu
    obtain ⟨synced, now, nodes'⟩ := r
    obtain ⟨hk, hcloses⟩ := h.takeBack (hl.uses hu)
    dsimp only at hop
    split at hop
    · obtain rfl := (Prod.mk.inj hop).2
      exact ⟨hk, rfl⟩
    · have hrun :=
        keeps_campaign (k := { k with fleet := k.fleet.takeBack nodes', now := now }) c o hk
          fun i n hn => ((hl.uses hu) i n hn).trans (hcloses i).symm
      rw [hop] at hrun
      exact ⟨hrun.custody, hrun.source⟩

theorem keeps_conduct (c : Configuration) (o : Circumstances) (es : List Environment)
    (h : Fleet.Custody [] k.fleet) : Keeps k (conduct c o es k).2 := by
  unfold conduct
  generalize k.fleet.files.makeDirs c.logDir = r
  obtain ⟨made, files⟩ := r
  have hfiles : Fleet.Custody [] { k.fleet with files := files } := h.congr rfl rfl rfl
  have hp := custody_provisionAll c k.now es hfiles
  dsimp only
  split
  · exact ⟨hfiles, rfl⟩
  · generalize provisionAll c k.now es { k.fleet with files := files } = r at hp ⊢
    obtain ⟨_ | _ | _, f⟩ := r
    · have hop := keeps_operate (k := { k with fleet := f }) c o hp (lends_nodesOf es f)
      exact ⟨hop.custody, hop.source⟩
    · exact ⟨hp, rfl⟩
    · exact ⟨hp, rfl⟩

/-- However the course ends, each terminal is closed or registered, and the source is as the
reservation left it. -/
theorem execute_spec (c : Configuration) (src : EnvironmentSource σ) (o : Circumstances)
    (h : Fleet.Custody [] k.fleet) :
    Fleet.Custody [] (execute c src o k).2.fleet ∧
      (execute c src o k).2.source = (src.reserve k.fleet.files k.now o.horizon k.source).2.2 := by
  unfold execute
  generalize src.reserve k.fleet.files k.now o.horizon k.source = r
  obtain ⟨reserved, now, state⟩ := r
  cases reserved with
  | failed cause => exact ⟨h, rfl⟩
  | panicked => exact ⟨h, rfl⟩
  | hung => exact ⟨h, rfl⟩
  | environments es =>
    dsimp only
    split
    · exact ⟨h, rfl⟩
    · have hc := keeps_conduct (k := { k with source := state, now := now }) c o es h
      exact ⟨hc.custody, hc.source⟩

/-! ## The end -/

/-- What an experiment leaves when it has cleaned up: nothing is registered, each terminal was
closed once, and the release is the last entry of the journal, behind one closing for each
terminal. -/
structure CleanedUp (f : Fleet) : Prop where
  registry : f.registry = []
  closed : ∀ c ∈ f.connections, c.terminal.closes = 1
  journal : ∃ front, f.journal = front ++ [.released] ∧ .released ∉ front ∧
    ∀ i, front.count (.opened i) = f.opens i ∧ front.count (.closed i) = f.opens i

theorem cleanedUp_tearDown (src : EnvironmentSource σ) (h : Fleet.Custody [] k.fleet) :
    CleanedUp (tearDown src k).fleet := by
  obtain ⟨hr, hk⟩ := h.closeAll
  have hplace : ∀ i, k.fleet.closeAll.2.closesOf i = k.fleet.closeAll.2.opens i := fun i => by
    simpa [hr] using hk.place i
  refine ⟨hr, fun c hc => ?_, _, rfl, hk.kept, fun i => ⟨hk.openings i, ?_⟩⟩
  · obtain ⟨i, hi⟩ : ∃ i, k.fleet.closeAll.2.connections[i]? = some c := List.mem_iff_getElem?.1 hc
    obtain ⟨hlt, -⟩ := List.getElem?_eq_some_iff.1 hi
    have hone := hplace i
    rw [Fleet.closesOf, Fleet.opens, hi, if_pos hlt] at hone
    exact hone
  · exact (hk.closings i).trans (hplace i)

/-- An experiment that is not given up while it waits closes each terminal that was opened once, and
then releases the devices, once. -/
theorem run_cleans_up (c : Configuration) (tool : FirmwareTool) (src : EnvironmentSource σ)
    (state : σ) (fs : FileSystem) (o : Circumstances)
    (hend : (run c tool src state fs o).ending ≠ .hung) :
    CleanedUp (run c tool src state fs o).course.fleet ∧
      (run c tool src state fs o).course.source =
        (src.release (src.reserve fs o.start o.horizon state).2.2).2 := by
  obtain ⟨hk, hs⟩ := execute_spec (k := ⟨state, .new tool c.recipe fs, o.start⟩) c src o
    (Fleet.Custody.new tool c.recipe fs)
  rcases hexec : execute c src o ⟨state, .new tool c.recipe fs, o.start⟩ with ⟨result, k⟩
  rw [hexec] at hk hs
  have hclean := cleanedUp_tearDown src hk
  have hsource : (tearDown src k).source =
      (src.release (src.reserve fs o.start o.horizon state).2.2).2 :=
    congrArg (fun s => (src.release s).2) hs
  cases result with
  | error b =>
    rw [run_of_error hexec] at hend ⊢
    have hwaits : b ≠ .hung := fun hb => hend (by rw [hb]; rfl)
    rw [if_neg hwaits]
    exact ⟨hclean, hsource⟩
  | ok nodes =>
    rw [run_of_ok hexec]
    exact ⟨⟨hclean.registry, hclean.closed, hclean.journal⟩, hsource⟩

/-- Environments that are released in vain; the state counts the releases. -/
def listedSource (es : List Environment) : EnvironmentSource Nat :=
  { reserve := fun _ now _ released => (.environments es, now, released)
    release := fun released => (.error (.malformed "boards"), released + 1) }

/-- A tool that breaks down over one device. No terminal of it can be closed without a failure. -/
def fragileTool (broken : String) : FirmwareTool :=
  { build := fun _ fs call => (if call.node = broken then .panicked else .done (), fs)
    openTerminal := fun _ fs _ => (.done (.uniform (.accepted []) (some "stuck")), fs) }

/-- The second environment is for the same device as the first, and the tool breaks down over the
third. -/
theorem run_cleans_up_replaced :
    let board (index : String) : Environment := .set .empty Environment.indexVar index
    let o : Circumstances := ⟨0, 100000, fun _ => ⟨2024, 1, 1, 0, 0, 0⟩, .never⟩
    let r := run .default (fragileTool "2") (listedSource [board "1", board "1", board "2"]) 0
      .empty o
    r.ending = .panicked ∧ r.course.fleet.connections.map (·.node) = ["1", "1"] ∧
      CleanedUp r.course.fleet ∧ r.course.source = 1 := by
  intro board o r
  have hend : r.ending = .panicked := by decide +kernel
  obtain ⟨hclean, hsource⟩ := run_cleans_up .default (fragileTool "2")
    (listedSource [board "1", board "1", board "2"]) 0 .empty o (hend.trans_ne (by decide))
  exact ⟨hend, by decide +kernel, hclean, hsource⟩

end Experiment

end ProximityLab
