import ProximityLab.Proofs.Experiment.Records
import ProximityLab.Proofs.Snapshot.Store

/-!
# The results of an experiment loaded again

What an experiment with a boards file has saved is loaded again if all coordinates in that file are
finite. A boards file may give others, and then the data file cannot be loaded: the log has no
numbers for them. Nothing else that goes into a record stands in the way, whatever the devices print
(`Experiment.run_reload`).
-/

namespace ProximityLab.Experiment

open Campaign (Left)

/-- The environments of a boards file are those that it lists. -/
theorem ofBoardsFile_of_reserve {path : String} {fs : FileSystem} {now horizon now' : Nat}
    {lease lease' : Option Testbed.Lease} {es : List Environment}
    (h : (ReservationSpec.file path).source.reserve fs now horizon lease =
      (.environments es, now', lease')) :
    Environment.ofBoardsFile fs path = .ok es := by
  simp only [ReservationSpec.source, ReservationSpec.reserve] at h
  split at h
  · rename_i hes
    cases h
    exact hes
  · cases h

theorem positions_of_owns {es : List Environment} {nodes : List Node}
    (h : List.Forall₂ (fun e n => e.Owns n.record ∧ n.record.Reported ∧ Left n) es nodes) :
    nodes.map (·.record.position) = es.map (·.position) := by
  induction h with
  | nil => rfl
  | cons hrecord _ ih => rw [List.map_cons, List.map_cons, ih, hrecord.1.position]

/-- An experiment with a boards file that has results leaves them in its data file. They are loaded
again exactly if the coordinates in the boards file are finite; else the line of the data file is no
snapshot. -/
theorem run_reload (c : Configuration) (tool : FirmwareTool) (path : String)
    (lease : Option Testbed.Lease) (fs : FileSystem) (o : Circumstances) {results : Snapshot}
    (hend : (run c tool (ReservationSpec.file path).source lease fs o).ending = .finished results)
    (hsome : results.nodes ≠ []) :
    ∃ es, Environment.ofBoardsFile fs path = .ok es ∧
      results.nodes.map (·.position) = es.map (·.position) ∧
      let files := (run c tool (ReservationSpec.file path).source lease fs o).course.fleet.files
      ((∀ e ∈ es, ∀ p ∈ e.position, p.Storable) → Store.load files c.dataPath = .ok [results]) ∧
        (¬ (∀ e ∈ es, ∀ p ∈ e.position, p.Storable) →
          Store.load files c.dataPath = .error (.malformed ⟨1⟩)) := by
  rcases hexec : execute c (ReservationSpec.file path).source o (outset c tool lease fs o)
    with ⟨b | nodes, k⟩
  · rw [run_of_error hexec] at hend
    cases b <;> cases hend
  · rw [run_of_ok hexec] at hend ⊢
    dsimp only at hend ⊢
    rcases hsave : save c nodes (tearDown (ReservationSpec.file path).source k).fleet.files
      with ⟨ending, files⟩
    rw [hsave] at hend
    obtain rfl := hend
    cases saves hsave with
    | nothing => exact absurd rfl hsome
    | saved hnodes hstore =>
      have hread := Store.read_save hstore
      obtain ⟨es, now, lease', hreserve, ⟨-, hnone, -⟩ | ⟨-, -, hrecords⟩⟩ :=
        (executes hexec).recorded
      · exact absurd hnone hnodes
      · have hpositions := positions_of_owns hrecords
        have hreported : ∀ r ∈ nodes.map (·.record), r.Reported := by
          rw [List.forall_mem_map]
          exact forall_mem_of_forall₂ (P := fun _ => True) hrecords (fun _ _ => trivial)
            fun _ _ _ h => h.2.1
        -- the positions of the records are those of the environments, one for one
        have hfinite : (∀ r ∈ nodes.map (·.record), ∀ p ∈ r.position, p.Storable) ↔
            ∀ e ∈ es, ∀ p ∈ e.position, p.Storable := by
          have hmap := List.forall_mem_map (f := Environment.position) (l := es)
            (P := fun q => ∀ p ∈ q, p.Storable)
          rw [← hmap, ← hpositions, List.forall_mem_map, List.forall_mem_map]
        refine ⟨es, ofBoardsFile_of_reserve hreserve,
          by rw [List.map_map]; exact hpositions, fun h => ?_, fun h => ?_⟩
        · exact Store.load_of_storable hread fun r hr => ⟨hreported r hr, hfinite.2 h r hr⟩
        · exact Store.load_of_not_storable hread hreported fun hall => h (hfinite.1 hall)

/-- A working directory with a boards file that lists a board without a height. -/
def heightless : FileSystem :=
  FileSystem.empty.put ["boards.yaml"]
    (Text.encode "- env:\n    BOARD_INDEX: 1\n  position: [1.5, 2, .nan]\n")

/-- A tool whose devices answer each line with a prompt. -/
def promptTool : FirmwareTool :=
  { build := fun _ fs _ => (.done (), fs)
    openTerminal := fun _ fs _ => (.done (.uniform (.accepted [⟨0, .line prompt⟩]) none), fs) }

/-- The board is used, and its results are saved, but they cannot be loaded again. -/
theorem run_reload_nan :
    let c := { Configuration.default with minNodes := 1, settleDelay := 0 }
    let o : Circumstances := ⟨0, 100000, fun _ => ⟨2024, 1, 1, 0, 0, 0⟩, .never⟩
    let position : Position := ⟨.ofDecimal false 15 (-1), .ofInt 2, .nan⟩
    let record : NodeRecord :=
      { NodeRecord.new "1" (some position) with outcome := some .completed }
    (run c promptTool (ReservationSpec.file "boards.yaml").source none heightless o).ending =
        .finished ⟨[record]⟩ ∧
      Store.load (run c promptTool (ReservationSpec.file "boards.yaml").source none heightless
        o).course.fleet.files
        c.dataPath = .error (.malformed ⟨1⟩) := by
  intro c o position record
  have hend : (run c promptTool (ReservationSpec.file "boards.yaml").source none heightless
      o).ending = .finished ⟨[record]⟩ := by decide +kernel
  obtain ⟨es, -, hpositions, -, hbad⟩ :=
    run_reload c promptTool "boards.yaml" none heightless o hend (List.cons_ne_nil record [])
  refine ⟨hend, hbad fun hall => ?_⟩
  obtain ⟨e, he, hposition⟩ : ∃ e ∈ es, e.position = some position := by
    rw [← List.mem_map, ← hpositions]
    exact List.mem_singleton_self _
  exact absurd (hall e he position hposition).z (by decide +kernel)

end ProximityLab.Experiment
