import ProximityLab.Proofs.Experiment.Records
import ProximityLab.Proofs.Provisioning.Spares
import ProximityLab.Proofs.Snapshot.Store

/-!
# What an experiment leaves in its files

An experiment writes its data file at the end and at no other time. Up to there a file changes only
if the firmware tool changes it (`Executes.preserves`). `run_dataFile` says what that makes of the
data file, however the experiment ends.
-/

namespace ProximityLab.Experiment

open Campaign (Left)

variable {σ : Type} {c : Configuration} {src : EnvironmentSource σ} {o : Circumstances} {state : σ}
  {tool : FirmwareTool} {fs : FileSystem} {p : Place} {k : Course σ}

/-! ## Up to the end of the campaign -/

/-- The tool spares the file at a place while it keeps the terminal logs of the environments that
are reserved. -/
def SparedBy (c : Configuration) (tool : FirmwareTool) (src : EnvironmentSource σ) (state : σ)
    (fs : FileSystem) (o : Circumstances) (p : Place) : Prop :=
  ∀ es now state', src.reserve fs o.start o.horizon state = (.environments es, now, state') →
    ∀ e ∈ es, ∀ node, e.node = .ok node → tool.Spares p (c.termlogPath node)

theorem Provisions.preserves {es : List Environment} {now : Nat} {state' : σ}
    {attempt : Attempt Unit} {f : Fleet}
    (h : Provisions c src o (outset c tool state fs o) es now state' attempt f)
    (hspares : SparedBy c tool src state fs o p) : f.Preserves tool p (fs.content? p) := by
  obtain ⟨files, hdir, hp⟩ := h.provisioned
  have hfiles := fs.content?_makeDirs c.logDir p
  change fs.makeDirs c.logDir = (.ok (), files) at hdir
  rw [hdir] at hfiles
  have hfirst : Fleet.Preserves tool p (fs.content? p) { (outset c tool state fs o).fleet with
      files := files } :=
    ⟨rfl, hfiles, by simp [outset, Fleet.new]⟩
  have hall : (provisionAll c now es { (outset c tool state fs o).fleet with
    files := files }).2.Preserves tool p
      (fs.content? p) :=
    (Fleet.Preserves.invariant p (fs.content? p) now).provisionAll hfirst
      fun e he call hnode hpath => ⟨_, hpath, hspares es now state' h.reserved e he _ hnode⟩
  rwa [hp] at hall

/-- A file that the tool spares is as it was until the campaign has ended. -/
theorem Executes.preserves {result : Except Breakoff (List Node)}
    (h : Executes c src o (outset c tool state fs o) result k)
    (hspares : SparedBy c tool src state fs o p) :
    k.fleet.Preserves tool p (fs.content? p) := by
  cases h with
  | unreserved => exact .new tool c.recipe fs p
  | tooFew => exact .new tool c.recipe fs p
  | noLogDir _ _ hdir =>
    have hfiles := fs.content?_makeDirs c.logDir p
    change fs.makeDirs c.logDir = _ at hdir
    rw [hdir] at hfiles
    exact ⟨rfl, hfiles, by simp [outset, Fleet.new]⟩
  | unprovisioned hp => exact hp.preserves hspares
  | unsettled hp => exact hp.preserves hspares
  | @unsynced es now now' state' f nodes b hp hsync =>
    have hf := hp.preserves hspares
    have hu := uses_syncAll c.commandSpan o (now + c.settleSpan.millisUp) (nodesOf es f)
    rw [hsync] at hu
    exact hf.takeBack ((hf.lent_nodesOf es).uses hu)
  | @unslacked es now now' state' f nodes hp hsync =>
    have hf := hp.preserves hspares
    have hu := uses_syncAll c.commandSpan o (now + c.settleSpan.millisUp) (nodesOf es f)
    rw [hsync] at hu
    exact hf.takeBack ((hf.lent_nodesOf es).uses hu)
  | @campaigned es now now' state' f nodes slack r hp hsync hslack hrun =>
    have hf := hp.preserves hspares
    have hu := uses_syncAll c.commandSpan o (now + c.settleSpan.millisUp) (nodesOf es f)
    rw [hsync] at hu
    have hlent := (hf.lent_nodesOf es).uses hu
    obtain ⟨hstarted, hnodes⟩ := Campaign.uses_run ⟨c.params, slack, c.graceSpan⟩ now' o.horizon
      (o.stop.moment o.start now') nodes
    rw [hrun] at hstarted hnodes
    have hlent' := hlent.uses hstarted
    exact ((hf.takeBack hlent).takeBack hlent').takeBack (hlent'.uses hnodes)

/-! ## The whole experiment -/

theorem preserves_tearDown {content : Option (List UInt8)} (src : EnvironmentSource σ)
    (h : k.fleet.Preserves tool p content) : (tearDown src k).fleet.Preserves tool p content := by
  have hclosed := (Fleet.Preserves.invariant p content 0).toEnduring.closeAll h
  exact ⟨hclosed.tool, hclosed.content, hclosed.leaves⟩

theorem equipped_tearDown {es : List Environment} (src : EnvironmentSource σ)
    (h : Equipped c es k.fleet) :
    Equipped c es (tearDown src k).fleet := by
  have hclosed := h.grows ((Fleet.Grows.enduring k.fleet).closeAll (.refl k.fleet))
  exact ⟨hclosed.roster, hclosed.calls⟩

/-- What an experiment that has not failed has to show for its environments. With too few of them,
or none, there are no results, the tool was not called, and all files are as they were. Else there
is one record for each environment, in the same order and with an outcome, and the data file holds
one line with just these results, and a line feed. -/
def Documented (c : Configuration) (fs : FileSystem) (es : List Environment) (results : Snapshot)
    (f : Fleet) : Prop :=
  if es.length < c.minNodes ∨ es = [] then
    results.nodes = [] ∧ f.calls = [] ∧ ∀ p, f.files.content? p = fs.content? p
  else
    List.Forall₂ (fun e r => e.Owns r ∧ r.outcome.isSome = true) es results.nodes ∧
      f.files.read c.dataPath = .ok (Text.encode (results.toLine ++ "\n"))

theorem documented_of_ok {nodes : List Node} {results : Snapshot} {files : FileSystem}
    (hexec : Executes c src o (outset c tool state fs o) (.ok nodes) k)
    (hsave : save c nodes (tearDown src k).fleet.files = (.finished results, files)) :
    ∃ es now state', src.reserve fs o.start o.horizon state = (.environments es, now, state') ∧
      Documented c fs es results { (tearDown src k).fleet with files := files } := by
  obtain ⟨es, now, state', hreserve, ⟨hfew, rfl, rfl⟩ | ⟨henough, hequipped, hrecords⟩⟩ :=
    hexec.recorded
  · cases saves hsave with
    | nothing =>
      refine ⟨es, now, state', hreserve, ?_⟩
      rw [Documented, if_pos (.inl hfew)]
      exact ⟨rfl, rfl, fun _ => rfl⟩
    | saved hsome => exact absurd rfl hsome
  · refine ⟨es, now, state', hreserve, ?_⟩
    by_cases hnone : es = []
    · subst hnone
      cases hrecords
      have hcalls := (equipped_tearDown src hequipped).calls
      cases saves hsave with
      | nothing =>
        rw [Documented, if_pos (.inr rfl)]
        refine ⟨rfl, by simpa using hcalls, fun p => ?_⟩
        have hspares : SparedBy c tool src state fs o p := by
          intro es now state' h
          rw [hreserve] at h
          cases h
          simp
        exact (preserves_tearDown src (hexec.preserves hspares)).content
      | saved hsome => exact absurd rfl hsome
    · rw [Documented, if_neg (by simp [hnone, henough])]
      cases saves hsave with
      | nothing hempty =>
        subst hempty
        cases hrecords
        exact absurd rfl hnone
      | saved hsome hstore =>
        refine ⟨?_, by rw [Store.read_save hstore, Snapshot.toLog_singleton]⟩
        rw [List.forall₂_map_right_iff]
        exact hrecords.imp fun _ _ h => ⟨h.1, h.2.2⟩

/-- How an experiment ends and what it leaves in its files. Without a failure the environments that
were reserved are documented. If it fails otherwise than by writing the data file, breaks down or is
given up, each file that the tool spares is as it was, the data file too. It never fails for a rule
of a node's life. -/
theorem run_dataFile (c : Configuration) (tool : FirmwareTool) (src : EnvironmentSource σ)
    (state : σ) (fs : FileSystem) (o : Circumstances) :
    let r := run c tool src state fs o
    (∀ results, r.ending = .finished results →
      ∃ es now state', src.reserve fs o.start o.horizon state = (.environments es, now, state') ∧
        Documented c fs es results r.course.fleet) ∧
    ((∀ results, r.ending ≠ .finished results) →
      (∀ path cause, r.ending ≠ .failed (.store (.write path cause))) →
      ∀ p, SparedBy c tool src state fs o p → r.course.fleet.files.content? p = fs.content? p) ∧
    ∀ cause, r.ending ≠ .failed (.node cause) := by
  dsimp only
  rcases hexec : execute c src o (outset c tool state fs o) with ⟨b | nodes, k⟩
  · rw [run_of_error hexec]
    refine ⟨fun results h => ?_, fun _ _ p hspares => ?_, fun cause h => ?_⟩
    · cases b <;> cases h
    · have hk := (executes hexec).preserves hspares
      dsimp only
      split
      · exact hk.content
      · exact (preserves_tearDown src hk).content
    · refine (executes hexec).not_node cause ?_
      cases b <;> cases h
      rfl
  · rw [run_of_ok hexec]
    dsimp only
    rcases hsave : save c nodes (tearDown src k).fleet.files with ⟨ending, files⟩
    refine ⟨fun results h => ?_, fun hfinished hwrite => ?_, fun cause h => ?_⟩
    · obtain rfl := h
      exact documented_of_ok (executes hexec) hsave
    · cases saves hsave with
      | nothing => exact absurd rfl (hfinished _)
      | saved => exact absurd rfl (hfinished _)
      | unsaved hstore =>
        obtain ⟨path, failure, rfl⟩ := Store.save_error hstore
        exact absurd rfl (hwrite path failure)
    · obtain rfl := h
      cases saves hsave

/-- A tool that writes a line to the terminal log when it opens a terminal. Devices answer each line
with a prompt. -/
def loggingTool : FirmwareTool :=
  { build := fun _ fs _ => (.done (), fs)
    openTerminal := fun _ fs call =>
      (.done (.uniform (.accepted [⟨0, .line prompt⟩]) none),
        match call.vars.get? Environment.termlogVar with
        | some path => fs.tryWrite ⟨path, Text.encode "ready\n", true⟩
        | none => fs) }

theorem logsOnly_loggingTool : loggingTool.LogsOnly where
  build _ _ _ := rfl
  openTerminal _ files call := by
    cases hpath : call.vars.get? Environment.termlogVar with
    | none => exact .inl (by simp [loggingTool, hpath])
    | some path => exact .inr ⟨path, Text.encode "ready\n", true, rfl, by simp [loggingTool, hpath]⟩
  leaves calls files call b files' h sent := by
    cases h
    rfl

/-- Two environments of one device: both have their records, and the data file holds just these.
With an environment that is of no device there is no campaign, and the old data file is still
there. -/
theorem run_dataFile_replaced :
    let c := { Configuration.default with settleDelay := 0 }
    let board : Environment := .set .empty Environment.indexVar "1"
    let src (es : List Environment) : EnvironmentSource Unit :=
      { reserve := fun _ now _ _ => (.environments es, now, ()), release := fun _ => (.ok (), ()) }
    let o : Circumstances := ⟨0, 100000, fun _ => ⟨2024, 1, 1, 0, 0, 0⟩, .never⟩
    let place := ["logs", "exp", "exp_data.log"]
    let fs : FileSystem :=
      { FileSystem.empty with dirs := [["logs"], ["logs", "exp"]], files := [(place, [62])] }
    let cut : NodeRecord :=
      { NodeRecord.new "1" none with outcome := some (.failed "control channel is closed") }
    let whole : NodeRecord := { NodeRecord.new "1" none with outcome := some .completed }
    let blank :=
      "\"node_id\":\"1\",\"position\":null,\"uid\":null,\"epoch_data\":[],\"telemetry\":[]"
    let failed := "\x7b\"status\":\"failed\",\"detail\":\"control channel is closed\"\x7d"
    let completed := "\x7b\"status\":\"completed\"\x7d"
    let line :=
      "\x7b\"nodes\":[\x7b" ++ blank ++ ",\"outcome\":" ++ failed ++ "\x7d,\x7b" ++ blank ++
      ",\"outcome\":" ++ completed ++ "\x7d]\x7d"
    ((run c loggingTool (src [board, board]) () fs o).ending = .finished ⟨[cut, whole]⟩ ∧
        (run c loggingTool (src [board, board]) () fs o).course.fleet.files.read c.dataPath =
          .ok (Text.encode (line ++ "\n"))) ∧
      (run c loggingTool (src [board, .empty]) () fs o).ending =
        .failed (.device (.unclassified .empty)) ∧
        (run c loggingTool (src [board, .empty]) () fs o).course.fleet.files.content? place =
        some [62] := by
  intro c board src o place fs cut whole blank failed completed line
  constructor
  · have hend : (run c loggingTool (src [board, board]) () fs o).ending =
        .finished ⟨[cut, whole]⟩ := by
      decide +kernel
    obtain ⟨es, now, state', hreserve, hdocumented⟩ :=
      (run_dataFile c loggingTool (src [board, board]) () fs o).1 _ hend
    cases hreserve
    rw [Documented, if_neg (by decide)] at hdocumented
    have hline : Snapshot.toLine ⟨[cut, whole]⟩ = line := by decide +kernel
    exact ⟨hend, hline ▸ hdocumented.2⟩
  · have hend : (run c loggingTool (src [board, .empty]) () fs o).ending =
        .failed (.device (.unclassified .empty)) := by decide +kernel
    have hspares : SparedBy c loggingTool (src [board, .empty]) () fs o place := by
      intro es now state' hreserve e he node hnode
      cases hreserve
      obtain rfl | rfl : e = board ∨ e = .empty := by simpa using he
      · cases hnode
        refine logsOnly_loggingTool.spares fun files hplace => ?_
        have hname : (Path.steps (c.termlogPath "1")).getLast? = some "1.log" := by decide +kernel
        exact absurd (FileSystem.getLast?_place hplace hname (by decide) (by decide)) (by decide)
      · cases hnode
    have hkept := (run_dataFile c loggingTool (src [board, .empty]) () fs o).2.1
      (fun results h => by rw [hend] at h; cases h) (fun path cause h => by rw [hend] at h; cases h)
      place hspares
    exact ⟨hend, hkept⟩

end ProximityLab.Experiment
