import ProximityLab.Campaign.Run
import ProximityLab.Environment.Source
import ProximityLab.Provisioning.Fleet
import ProximityLab.Snapshot.Store
import ProximityLab.Terminal.Repair

/-!
# Experiments

An experiment reserves environments, provisions a device for each of them, asks every device for its
identifier and sets its clock, runs a campaign on all of them, and saves the results.
`Experiment.run` goes through these steps; whatever happens on the way, it then closes all terminals
and releases the devices (`Experiment.tearDown`). Only an experiment that is given up while it waits
skips that.

With too few environments there is no campaign and nothing is saved.
-/

namespace ProximityLab

/-- Why an experiment failed. -/
inductive ExperimentError where
  | environment (cause : EnvironmentError)
  | device (cause : DeviceError)
  | node (cause : NodeError)
  | store (cause : StoreError)
  | logDir (path : String) (cause : FileError)
  deriving DecidableEq

/-- The failure for people to read. -/
def ExperimentError.message : ExperimentError → String
  | .environment cause => cause.message
  | .device cause => cause.message
  | .node cause => cause.message
  | .store cause => cause.message
  | .logDir path cause => s!"failed to create log directory {path}: {cause.message}"

/-- The failure and what led to it, for people to read. -/
def ExperimentError.causes : ExperimentError → List String
  | .environment cause => cause.causes
  | .device cause => cause.causes
  | .node cause => [cause.message]
  | .store cause => cause.causes
  | .logDir path cause => [(ExperimentError.logDir path cause).message, cause.message]

/-- What an experiment is run under: when it starts, when it is given up, what the clock shows at a
moment, and when it is to be stopped. -/
structure Circumstances where
  start : Nat
  horizon : Nat
  clock : Nat → DateTime
  stop : StopSignal

/-- Why the course of an experiment ends early. -/
inductive Breakoff where
  | failed (cause : ExperimentError)
  | panicked
  /-- The horizon came first. -/
  | hung
  deriving DecidableEq

/-- How an experiment ends. -/
inductive ExperimentEnd where
  | finished (results : Snapshot)
  | failed (cause : ExperimentError)
  | panicked
  | hung
  deriving DecidableEq

/-- The state of an experiment. -/
structure Course (σ : Type) where
  source : σ
  fleet : Fleet
  now : Nat

/-- What an experiment leaves behind. -/
structure Report (σ : Type) where
  ending : ExperimentEnd
  course : Course σ

/-- An operation failed as a whole, not only for a channel. -/
def Halt.breakoff? : Halt → Option Breakoff
  | .channel _ => none
  | .hung => some .hung
  | .overflow => some .panicked

/-- Takes back the terminals of all nodes. -/
def Fleet.takeBack (nodes : List Node) (f : Fleet) : Fleet :=
  nodes.zipIdx.foldl (fun f p => f.giveBack p.2 p.1.terminal) f

namespace Experiment

/-- Provisions a device for every environment. Each keeps the log of its terminal in a file of its
own. -/
def provisionAll (c : Configuration) (now : Nat) : List Environment → Fleet → Attempt Unit × Fleet
  | [], f => (.done (), f)
  | e :: es, f =>
    match e.node with
    | .error cause => (.failed cause, f)
    | .ok node =>
      Fleet.andThen (f.provision now (e.set Environment.termlogVar (c.termlogPath node))) fun _ f =>
      provisionAll c now es f

/-- The nodes of environments whose terminals are open. -/
def nodesOf (es : List Environment) (f : Fleet) : List Node :=
  List.zipWith (fun e c => Node.new c.terminal c.node e.position) es f.connections

/-- Asks a device for its identifier and assigns it, if there is one. -/
def identify (limit : TimeSpan) (now horizon : Nat) (n : Node) :
    Except Breakoff Unit × Nat × Node :=
  let (result, s) := (Talk.uid limit).run.run ⟨now, horizon, n.terminal⟩
  let n := n.withTerminal s.terminal
  match result with
  | .ok none => (.ok (), s.now, n)
  | .ok (some uid) =>
    match n.setUid uid with
    | .ok n => (.ok (), s.now, n)
    | .error cause => (.error (.failed (.node cause)), s.now, n)
  | .error h =>
    match h.breakoff? with
    | none => (.ok (), s.now, n)
    | some b => (.error b, s.now, n)

/-- Sets the clock of a device. -/
def adjust (limit : TimeSpan) (time : DateTime) (now horizon : Nat) (n : Node) :
    Except Breakoff Unit × Nat × Node :=
  let (result, s) := (Talk.setTime limit time).run.run ⟨now, horizon, n.terminal⟩
  let n := n.withTerminal s.terminal
  match result with
  | .ok _ => (.ok (), s.now, n)
  | .error h =>
    match h.breakoff? with
    | none => (.ok (), s.now, n)
    | some b => (.error b, s.now, n)

/-- Identifies devices and sets their clocks, one device after the other. -/
def syncAll (limit : TimeSpan) (o : Circumstances) :
    Nat → List Node → Except Breakoff Unit × Nat × List Node
  | now, [] => (.ok (), now, [])
  | now, n :: ns =>
    match identify limit now o.horizon n with
    | (.error b, now, n) => (.error b, now, n :: ns)
    | (.ok (), now, n) =>
      match adjust limit (o.clock now) now o.horizon n with
      | (.error b, now, n) => (.error b, now, n :: ns)
      | (.ok (), now, n) =>
        let (result, now, ns) := syncAll limit o now ns
        (result, now, n :: ns)

variable {σ : Type}

/-- Runs the campaign on all nodes. -/
def campaign (c : Configuration) (o : Circumstances) (nodes : List Node) (k : Course σ) :
    Except Breakoff (List Node) × Course σ :=
  match c.slackSpan with
  | .error .overflow => (.error .panicked, k)
  | .ok slack =>
    let r := (Campaign.mk c.params slack c.graceSpan).run k.now o.horizon
      (o.stop.moment o.start k.now) nodes
    let k := { k with fleet := (k.fleet.takeBack r.started).takeBack r.nodes, now := r.time }
    match r.ending with
    | .done => (.ok r.nodes, k)
    | .busy cause => (.error (.failed (.node cause)), k)
    | .cut => (.error .hung, k)
    | .overflow => (.error .panicked, k)

/-- Gives terminals time to come up, synchronises all devices and runs the campaign. -/
def operate (c : Configuration) (o : Circumstances) (nodes : List Node) (k : Course σ) :
    Except Breakoff (List Node) × Course σ :=
  let settled := k.now + c.settleSpan.millisUp
  if o.horizon < settled then (.error .hung, { k with now := o.horizon })
  else
    let (synced, now, nodes) := syncAll c.commandSpan o settled nodes
    let k := { k with fleet := k.fleet.takeBack nodes, now := now }
    match synced with
    | .error b => (.error b, k)
    | .ok () => campaign c o nodes k

/-- Provisions the reserved devices and operates them. -/
def conduct (c : Configuration) (o : Circumstances) (es : List Environment) (k : Course σ) :
    Except Breakoff (List Node) × Course σ :=
  let (made, files) := k.fleet.files.makeDirs c.logDir
  let k := { k with fleet := { k.fleet with files := files } }
  match made with
  | .error cause => (.error (.failed (.logDir c.logDir cause)), k)
  | .ok () =>
    match provisionAll c k.now es k.fleet with
    | (.failed cause, f) => (.error (.failed (.device cause)), { k with fleet := f })
    | (.panicked, f) => (.error .panicked, { k with fleet := f })
    | (.done (), f) => operate c o (nodesOf es f) { k with fleet := f }

/-- Reserves devices and conducts the experiment with them; with too few there are no nodes. -/
def execute (c : Configuration) (src : EnvironmentSource σ) (o : Circumstances) (k : Course σ) :
    Except Breakoff (List Node) × Course σ :=
  let (reserved, now, state) := src.reserve k.fleet.files k.now o.horizon k.source
  let k := { k with source := state, now := now }
  match reserved with
  | .failed cause => (.error (.failed (.environment cause)), k)
  | .panicked => (.error .panicked, k)
  | .hung => (.error .hung, k)
  | .environments es => if es.length < c.minNodes then (.ok [], k) else conduct c o es k

/-- Closes all terminals and releases the devices; a failure to release changes nothing. -/
def tearDown (src : EnvironmentSource σ) (k : Course σ) : Course σ :=
  let f := k.fleet.closeAll.2
  { k with
    source := (src.release k.source).2
    fleet := { f with journal := f.journal ++ [.released] } }

/-- Repairs the terminal logs that are there, as far as that is possible. -/
def repairLogs (c : Configuration) (nodes : List Node) (fs : FileSystem) : FileSystem :=
  nodes.foldl (fun fs n => (fs.repairLog (c.termlogPath n.id)).2) fs

/-- Repairs the terminal logs and saves the results. -/
def save (c : Configuration) (nodes : List Node) (fs : FileSystem) : ExperimentEnd × FileSystem :=
  if nodes.isEmpty then (.finished ⟨[]⟩, fs)
  else
    let results : Snapshot := ⟨nodes.map (·.record)⟩
    match Store.save (repairLogs c nodes fs) c.dataPath [results] with
    | (.ok (), fs) => (.finished results, fs)
    | (.error cause, fs) => (.failed (.store cause), fs)

/-- Runs an experiment. -/
def run (c : Configuration) (tool : FirmwareTool) (src : EnvironmentSource σ) (state : σ)
    (fs : FileSystem) (o : Circumstances) : Report σ :=
  let (result, k) := execute c src o ⟨state, .new tool c.recipe fs, o.start⟩
  match result with
  | .error .hung => ⟨.hung, k⟩
  | .error (.failed cause) => ⟨.failed cause, tearDown src k⟩
  | .error .panicked => ⟨.panicked, tearDown src k⟩
  | .ok nodes =>
    let k := tearDown src k
    let (ending, files) := save c nodes k.fleet.files
    ⟨ending, { k with fleet := { k.fleet with files := files } }⟩

end Experiment

end ProximityLab
