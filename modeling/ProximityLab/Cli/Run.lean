import ProximityLab.Cli.Usage
import ProximityLab.Experiment.Run
import ProximityLab.Provisioning.Make
import ProximityLab.Snapshot.Report
import ProximityLab.Testbed.Client

/-!
# Carrying out a command line

`Cli.run` takes the arguments of the program, its surroundings and the files below the working
directory, and gives what the program prints, its exit code and the files behind it.
-/

namespace ProximityLab.Cli

/-- What the program is run in. -/
structure Surroundings where
  vars : List (String × String)
  files : FileSystem
  clock : Nat → DateTime

/-- What the program leaves behind. -/
structure Outcome where
  code : Nat
  output : String
  errors : String
  files : FileSystem

/-! ## Texts -/

/-- A text whose lines, but for the first, are moved to the right. -/
def indent (width : Nat) (s : String) : String :=
  let margin := String.ofList (List.replicate width ' ')
  ("\n" ++ margin).intercalate (Text.split '\n' s)

/-- The lines that list what led to a failure; several causes are numbered. -/
def causeLines (causes : List String) : List String :=
  match causes with
  | [cause] => ["    " ++ indent 4 cause]
  | causes => causes.mapIdx fun i cause =>
      let number := toString i
      String.ofList (List.replicate (5 - number.length) ' ') ++ number ++ ": " ++ indent 7 cause

/-- A failure and what led to it. -/
def failureText (context : String) (causes : List String) : String :=
  let listed := if causes.isEmpty then "" else
    "\n\nCaused by:\n" ++ "\n".intercalate (causeLines causes)
  "Error: " ++ context ++ listed ++ "\n"

/-- An outcome for people to read. -/
def outcomeText : ProximityLab.Outcome → String
  | .completed => "Completed"
  | .stopped => "Stopped"
  | .timedOut => "TimedOut"
  | .failed cause => "Failed(" ++ Text.quoted cause ++ ")"

/-- The counts of one node. -/
def reportText (r : NodeReport) : String :=
  let line (s : String) : String := s ++ "\n"
  line "" ++ line r.node ++
    (r.uid.map fun uid => line ("  uid: " ++ uid)).getD "" ++
    (r.outcome.map fun o => line ("  outcome: " ++ outcomeText o)).getD "" ++
    line s!"  epochs: {r.epochs} ({r.encounters} encounters)" ++
    line s!"  telemetry: {r.bleSamples} ble, {r.uwbSamples} uwb"

/-- The counts of all nodes. -/
def summaryText (s : Snapshot) : String := String.join (s.reports.map reportText)

/-- What is printed at the end of an experiment. -/
def resultText (c : Configuration) (elapsed : Nat) (s : Snapshot) : String :=
  "\n=== Experiment Result ===\n" ++ s!"Nodes: {s.nodes.length}\n" ++
    s!"Elapsed: {elapsedText elapsed}\n" ++
    (if s.isEmpty then "" else s!"Data: {c.dataPath}\n") ++ summaryText s

/-- A short account of the command line. -/
def usageText : String :=
  "Usage: pepper-experiment [OPTIONS] <COMMAND>\n\nCommands:\n" ++
    "  run       Run an experiment\n  classify  Classify a captured TERMLOG\n" ++
    "  sanitize  Repair the first line of a TERMLOG\n"

/-- The name of the program with its version. -/
def versionText : String := "pepper-experiment 0.1.0\n"

/-! ## Commands -/

namespace Surroundings

/-- The outcome of a command that succeeded. -/
def success (s : Surroundings) (output : String) : Outcome := ⟨0, output, "", s.files⟩

/-- The outcome of a command that failed. -/
def failure (s : Surroundings) (output context : String) (causes : List String) : Outcome :=
  ⟨1, output, failureText context causes, s.files⟩

/-- The surroundings with other files. -/
def withFiles (s : Surroundings) (files : FileSystem) : Surroundings := { s with files := files }

end Surroundings

/-- The settings when no file gives any: a short campaign that ends by the wall clock. -/
def defaultConfiguration : Configuration :=
  { Configuration.default with
    params :=
      { iterations := 5, duration := 300, advInterval := 1000, advsPerSlice := 10,
        scanInterval := 1024, scanWindow := 1024, alignStart := false, alignEnd := true } }

/-- Classifies a terminal log. -/
def classifyLog (s : Surroundings) (log : String) (output : Option String) : Outcome :=
  match s.files.read log with
  | .error e => s.failure "" s!"failed to read {log}" [e.message]
  | .ok content =>
    let record := (NodeRecord.new ((Path.stem? log).getD "node") none).absorb
      (classify (Text.decodeLenient content))
    let results : Snapshot := ⟨[record]⟩
    let text := summaryText results
    match output with
    | none => s.success text
    | some path =>
      match Store.save s.files path [results] with
      | (.ok (), files) => (s.withFiles files).success text
      | (.error e, files) => (s.withFiles files).failure text s!"failed to write {path}" e.causes

/-- Repairs a terminal log. -/
def sanitizeLog (s : Surroundings) (log : String) : Outcome :=
  match s.files.repairLog log with
  | (.error e, files) => (s.withFiles files).failure "" s!"failed to sanitize {log}" [e.message]
  | (.ok true, files) => (s.withFiles files).success s!"Cleaned {log}\n"
  | (.ok false, files) => (s.withFiles files).success s!"Nothing to clean in {log}\n"

/-- An experiment from the command line is not given up in a human life. -/
def endOfTime : Nat := 1000000000000000

/-- Conducts an experiment. -/
def conduct (s : Surroundings) (c : Configuration) (spec : ReservationSpec) : Outcome :=
  let failed (s : Surroundings) (e : ExperimentError) : Outcome :=
    s.failure "" "experiment failed" e.causes
  let o : Circumstances := ⟨0, endOfTime, s.clock, .never⟩
  let tool := MakeTool.firmware ⟨c.appDir, s.vars⟩
  match spec.lease c.testbed (.ofList s.vars) fun _ => none with
  | .error e => failed s (.environment e)
  | .ok lease =>
    let r := Experiment.run c tool spec.source lease s.files o
    let s := s.withFiles r.course.fleet.files
    match r.ending with
    | .finished results => s.success (resultText c r.course.now results)
    | .failed e => failed s e
    | .panicked | .hung => ⟨101, "", "", s.files⟩

/-- The configuration of a file. -/
def loadConfiguration (s : Surroundings) (path : Option String) : Except Outcome Configuration :=
  match path with
  | none => .ok defaultConfiguration
  | some path =>
    match s.files.readText path with
    | .error e => .error (s.failure "" s!"failed to read config {path}" [e.message])
    | .ok text =>
      match Configuration.ofToml? text with
      | some c => .ok c
      | none => .error (s.failure "" s!"invalid config {path}" ["TOML parse error"])

/-- Carries out a command. -/
def carryOut (s : Surroundings) (c : Configuration) : Command → Outcome
  | .run m => conduct s (m.configure c) (m.spec (m.configure c))
  | .classify log output => classifyLog s log output
  | .sanitize log => sanitizeLog s log

/-- Carries out a command line. -/
def run (args : List String) (s : Surroundings) : Outcome :=
  match Request.ofArguments (s.vars.lookup configVar) args with
  | .error .wrong => ⟨2, "", "error: " ++ usageText, s.files⟩
  | .error .help => s.success usageText
  | .error .version => s.success versionText
  | .ok request =>
    match loadConfiguration s request.config with
    | .error o => o
    | .ok c => carryOut s c request.command

end ProximityLab.Cli
