import ProximityLab.Experiment.Run

/-!
# The ways through an experiment

`Experiment.Executes` lists the ways in which an experiment can go up to the end of its campaign,
with the result and the course of each. `executes`: each experiment goes one of these ways. What
holds of all experiments is shown by cases over them.

`run_of_error` and `run_of_ok` add the end: an experiment that is given up while it waits is not
torn down, and only one whose campaign is done saves its results, in one of the ways that
`Experiment.Saves` lists.
-/

namespace ProximityLab

/-- What a reservation without environments makes of an experiment. -/
def Reserved.breakoff? : Reserved → Option Breakoff
  | .environments _ => none
  | .failed cause => some (.failed (.environment cause))
  | .panicked => some .panicked
  | .hung => some .hung

/-- What an unsuccessful provisioning makes of an experiment. -/
def Attempt.breakoff? {α : Type} : Attempt α → Option Breakoff
  | .done _ => none
  | .failed cause => some (.failed (.device cause))
  | .panicked => some .panicked

/-- How an experiment ends that breaks off. -/
def Breakoff.ending : Breakoff → ExperimentEnd
  | .failed cause => .failed cause
  | .panicked => .panicked
  | .hung => .hung

/-- What the end of a campaign with these nodes makes of an experiment. -/
def RunEnd.result (nodes : List Node) : RunEnd → Except Breakoff (List Node)
  | .done => .ok nodes
  | .busy cause => .error (.failed (.node cause))
  | .cut => .error .hung
  | .overflow => .error .panicked

namespace Experiment

variable {σ : Type}

/-- The environments of an experiment that has enough of them, and what provisioning makes of the
fleet. -/
structure Provisions (c : Configuration) (src : EnvironmentSource σ) (o : Circumstances)
    (k : Course σ) (es : List Environment) (now : Nat) (state : σ) (attempt : Attempt Unit)
    (f : Fleet) : Prop where
  reserved : src.reserve k.fleet.files k.now o.horizon k.source = (.environments es, now, state)
  enough : c.minNodes ≤ es.length
  provisioned : ∃ files, k.fleet.files.makeDirs c.logDir = (.ok (), files) ∧
    provisionAll c now es { k.fleet with files := files } = (attempt, f)

/-- The ways through an experiment up to the end of its campaign. -/
inductive Executes (c : Configuration) (src : EnvironmentSource σ) (o : Circumstances)
    (k : Course σ) :
    Except Breakoff (List Node) → Course σ → Prop
  | unreserved {reserved : Reserved} {now : Nat} {state : σ} {b : Breakoff}
      (h : src.reserve k.fleet.files k.now o.horizon k.source = (reserved, now, state))
      (hb : reserved.breakoff? = some b) : Executes c src o k (.error b) ⟨state, k.fleet, now⟩
  | tooFew {es : List Environment} {now : Nat} {state : σ}
      (h : src.reserve k.fleet.files k.now o.horizon k.source = (.environments es, now, state))
      (hfew : es.length < c.minNodes) : Executes c src o k (.ok []) ⟨state, k.fleet, now⟩
  | noLogDir {es : List Environment} {now : Nat} {state : σ} {cause : FileError}
      {files : FileSystem}
      (h : src.reserve k.fleet.files k.now o.horizon k.source = (.environments es, now, state))
      (henough : c.minNodes ≤ es.length)
      (hdir : k.fleet.files.makeDirs c.logDir = (.error cause, files)) :
      Executes c src o k (.error (.failed (.logDir c.logDir cause)))
        ⟨state, { k.fleet with files := files }, now⟩
  | unprovisioned {es : List Environment} {now : Nat} {state : σ} {attempt : Attempt Unit}
      {f : Fleet} {b : Breakoff} (h : Provisions c src o k es now state attempt f)
      (hb : attempt.breakoff? = some b) :
      Executes c src o k (.error b) ⟨state, f, now⟩
  | unsettled {es : List Environment} {now : Nat} {state : σ} {f : Fleet}
      (h : Provisions c src o k es now state (.done ()) f)
      (hlate : o.horizon < now + c.settleSpan.millisUp) :
      Executes c src o k (.error .hung) ⟨state, f, o.horizon⟩
  | unsynced {es : List Environment} {now now' : Nat} {state : σ} {f : Fleet} {nodes : List Node}
      {b : Breakoff} (h : Provisions c src o k es now state (.done ()) f)
      (hsync : syncAll c.commandSpan o (now + c.settleSpan.millisUp) (nodesOf es f) =
        (.error b, now', nodes))
      (hsettled : now + c.settleSpan.millisUp ≤ o.horizon) :
      Executes c src o k (.error b) ⟨state, f.takeBack nodes, now'⟩
  | unslacked {es : List Environment} {now now' : Nat} {state : σ} {f : Fleet} {nodes : List Node}
      (h : Provisions c src o k es now state (.done ()) f)
      (hsync : syncAll c.commandSpan o (now + c.settleSpan.millisUp) (nodesOf es f) =
        (.ok (), now', nodes))
      (hslack : c.slackSpan = .error .overflow)
      (hsettled : now + c.settleSpan.millisUp ≤ o.horizon) :
      Executes c src o k (.error .panicked) ⟨state, f.takeBack nodes, now'⟩
  | campaigned {es : List Environment} {now now' : Nat} {state : σ} {f : Fleet} {nodes : List Node}
      {slack : TimeSpan} {r : RunResult} (h : Provisions c src o k es now state (.done ()) f)
      (hsync : syncAll c.commandSpan o (now + c.settleSpan.millisUp) (nodesOf es f) =
        (.ok (), now', nodes))
      (hslack : c.slackSpan = .ok slack)
      (hrun : (Campaign.mk c.params slack c.graceSpan).run now' o.horizon
        (o.stop.moment o.start now') nodes = r)
      (hsettled : now + c.settleSpan.millisUp ≤ o.horizon) :
      Executes c src o k (r.ending.result r.nodes)
        ⟨state, ((f.takeBack nodes).takeBack r.started).takeBack r.nodes, r.time⟩

variable {c : Configuration} {src : EnvironmentSource σ} {o : Circumstances} {k : Course σ}

theorem executes_operate {es : List Environment} {now : Nat} {state : σ} {f : Fleet}
    {result : Except Breakoff (List Node)} {k' : Course σ}
    (h : Provisions c src o k es now state (.done ()) f)
    (hop : operate c o (nodesOf es f) ⟨state, f, now⟩ = (result, k')) :
    Executes c src o k result k' := by
  unfold operate at hop
  dsimp only at hop
  split at hop
  · rename_i hlate
    cases hop
    exact .unsettled h hlate
  · rename_i hearly
    have hsettled := Nat.le_of_not_lt hearly
    rcases hsync : syncAll c.commandSpan o (now + c.settleSpan.millisUp) (nodesOf es f)
      with ⟨_ | _, now', nodes⟩
    · rw [hsync] at hop
      cases hop
      exact .unsynced h hsync hsettled
    · rw [hsync] at hop
      dsimp only at hop
      unfold campaign at hop
      rcases hslack : c.slackSpan with e | slack
      · cases e
        rw [hslack] at hop
        cases hop
        exact .unslacked h hsync hslack hsettled
      · rw [hslack] at hop
        dsimp only at hop
        have hdone := Executes.campaigned h hsync hslack rfl hsettled
        split at hop <;> rename_i hending <;> rw [hending] at hdone <;> cases hop <;> exact hdone

/-- An experiment goes one of the ways that there are. -/
theorem executes {result : Except Breakoff (List Node)} {k' : Course σ}
    (h : execute c src o k = (result, k')) :
    Executes c src o k result k' := by
  unfold execute at h
  rcases hreserve : src.reserve k.fleet.files k.now o.horizon k.source
    with ⟨es | cause | _ | _, now, state⟩ <;>
    rw [hreserve] at h <;> dsimp only at h
  case environments =>
    split at h
    · rename_i hfew
      cases h
      exact .tooFew hreserve hfew
    · rename_i henough
      unfold conduct at h
      rcases hdir : k.fleet.files.makeDirs c.logDir with ⟨cause | _, files⟩ <;> rw [hdir] at h <;>
        dsimp only at h
      · cases h
        exact .noLogDir hreserve (Nat.not_lt.1 henough) hdir
      · rcases hp : provisionAll c now es { k.fleet with files := files } with ⟨_ | _ | _, f⟩ <;>
          rw [hp] at h <;>
          dsimp only at h
        · exact executes_operate ⟨hreserve, Nat.not_lt.1 henough, files, hdir, hp⟩ h
        · cases h
          exact .unprovisioned ⟨hreserve, Nat.not_lt.1 henough, files, hdir, hp⟩ rfl
        · cases h
          exact .unprovisioned ⟨hreserve, Nat.not_lt.1 henough, files, hdir, hp⟩ rfl
  all_goals
    cases h
    exact .unreserved hreserve rfl

/-! ## The end -/

/-- The ways in which the results of an experiment are saved. -/
inductive Saves (c : Configuration) (nodes : List Node) (fs : FileSystem) :
    ExperimentEnd → FileSystem → Prop
  | nothing (h : nodes = []) : Saves c nodes fs (.finished ⟨[]⟩) fs
  | saved {fs' : FileSystem} (hsome : nodes ≠ [])
      (h : Store.save (repairLogs c nodes fs) c.dataPath [⟨nodes.map (·.record)⟩] = (.ok (), fs')) :
      Saves c nodes fs (.finished ⟨nodes.map (·.record)⟩) fs'
  | unsaved {cause : StoreError} {fs' : FileSystem}
      (h : Store.save (repairLogs c nodes fs) c.dataPath [⟨nodes.map (·.record)⟩] =
        (.error cause, fs')) :
      Saves c nodes fs (.failed (.store cause)) fs'

theorem saves {nodes : List Node} {fs fs' : FileSystem} {ending : ExperimentEnd}
    (h : save c nodes fs = (ending, fs')) : Saves c nodes fs ending fs' := by
  unfold save at h
  split at h
  · rename_i hempty
    cases h
    exact .nothing (List.isEmpty_iff.1 hempty)
  · rename_i hsome
    dsimp only at h
    split at h <;> rename_i hsave <;> cases h
    · exact .saved (by simpa using hsome) hsave
    · exact .unsaved hsave

variable {tool : FirmwareTool} {state : σ} {fs : FileSystem}

theorem run_of_error {b : Breakoff}
    (h : execute c src o ⟨state, .new tool c.recipe fs, o.start⟩ = (.error b, k)) :
    run c tool src state fs o = ⟨b.ending, if b = .hung then k else tearDown src k⟩ := by
  unfold run
  rw [h]
  cases b <;> rfl

theorem run_of_ok {nodes : List Node}
    (h : execute c src o ⟨state, .new tool c.recipe fs, o.start⟩ = (.ok nodes, k)) :
    run c tool src state fs o =
      ⟨(save c nodes (tearDown src k).fleet.files).1,
        { tearDown src k with
          fleet := { (tearDown src k).fleet with
            files := (save c nodes (tearDown src k).fleet.files).2 } }⟩ := by
  unfold run
  rw [h]

end Experiment

end ProximityLab
