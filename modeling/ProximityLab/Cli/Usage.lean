import ProximityLab.Cli.Arguments
import ProximityLab.Configuration
import ProximityLab.Environment.Source

/-!
# The commands of the program

`Request.ofArguments` reads a command line: `run` conducts an experiment, `classify` reads a
terminal log and `sanitize` repairs one. Options of a run change single settings of the
configuration.
-/

namespace ProximityLab.Cli

/-! ## Values -/

/-- The value of digits behind an optional plus sign. -/
def natural? (s : String) : Option Nat :=
  let digits := match s.toList with
    | '+' :: cs => cs
    | cs => cs
  if digits.isEmpty || !digits.all Char.isDigit then none else some (Numeral.valueOf digits)

/-- The text is a number of so many bits. -/
def fits (bits : Nat) (s : String) : Bool := (natural? s).any (· < Nat.pow 2 bits)

/-- The text is a truth value. -/
def isTruth (s : String) : Bool := s = "true" || s = "false"

/-- The text is a path. -/
def isPath (s : String) : Bool := !s.isEmpty

/-- Every text will do. -/
def isText (_ : String) : Bool := true

/-! ## Options -/

/-- Options that every command has. -/
def commonRules : List OptionRule :=
  [.value "config" isPath, .value "loglevel" isText, .flag "verbose" (some 'v'),
    .flag "help" (some 'h')]

/-- Options in front of a command. -/
def topRules : List OptionRule := .flag "version" (some 'V') :: commonRules

/-- Options of a run. -/
def runRules : List OptionRule :=
  [.value "app-dir" isPath, .value "log-dir" isPath, .value "data-file" isText,
    { OptionRule.value "iotlab-nodes" isText with repeats := true },
    (OptionRule.value "count" (fits 64)).lettered 'n', .value "boards-file" isPath,
    .value "site" isText, .value "exp-name" isText, .value "exp-duration" (fits 32),
    (OptionRule.value "iterations" (fits 32)).lettered 'c',
    (OptionRule.value "duration" (fits 32)).lettered 'd', .value "adv-itvl" (fits 32),
    .value "advs-slice" (fits 32), .value "scan-itvl" (fits 32), .value "scan-win" (fits 32),
    .value "align-start" isTruth, .value "align-end" isTruth, .value "flashfile" isPath,
    { OptionRule.value "cflags" isText with takesHyphens := true }, .value "modules" isText]

/-- Options of a classification. -/
def classifyRules : List OptionRule := [.value "output" isPath]

/-! ## Requests -/

/-- What is asked of the program. -/
inductive Command where
  | run (settings : Matched)
  | classify (log : String) (output : Option String)
  | sanitize (log : String)

/-- A command and the configuration file to use. -/
structure Request where
  config : Option String
  command : Command

/-- The variable that names the configuration file. -/
def configVar : String := "PEPPER_EXPERIMENT_CONFIG"

/-- The only positional argument. -/
def onlyPath (m : Matched) : Except Refusal String :=
  match m.positional with
  | [path] => if isPath path then .ok path else .error .wrong
  | _ => .error .wrong

/-- Reads the arguments of a command. -/
def readCommand (name : String) (args : List String) : Except Refusal (Matched × Command) := do
  let own := match name with
    | "run" => runRules
    | "classify" => classifyRules
    | _ => []
  let (m, _) ← readArguments (own ++ commonRules) [] none false .empty args
  match name with
  | "run" => if m.positional.isEmpty then return (m, .run m) else .error .wrong
  | "classify" => return (m, .classify (← onlyPath m) (m.value? "output"))
  | _ => return (m, .sanitize (← onlyPath m))

/-- Reads a command line. The configuration file is named by an option, the one behind the command
first, or by a variable. -/
def Request.ofArguments (inherited : Option String) (args : List String) :
    Except Refusal Request := do
  match ← readArguments topRules ["run", "classify", "sanitize"] none false .empty args with
  | (_, none) => .error .wrong
  | (top, some (name, args)) =>
    let (m, command) ← readCommand name args
    if inherited = some "" && !(top.has "config" && m.has "config") then .error .wrong
    else
      let named := (m.value? "config").orElse fun _ => top.value? "config"
      return ⟨named.orElse fun _ => inherited, command⟩

/-! ## Settings of a run -/

/-- The number of an option, or another one. -/
def Matched.number (m : Matched) (long : String) (default : Nat) : Nat :=
  ((m.value? long).bind natural?).getD default

/-- The truth value of an option, or another one. -/
def Matched.truth (m : Matched) (long : String) (default : Bool) : Bool :=
  ((m.value? long).map (· == "true")).getD default

/-- The text of an option, or another one. -/
def Matched.text (m : Matched) (long : String) (default : String) : String :=
  (m.value? long).getD default

/-- A configuration with the settings of a command line. -/
def Matched.configure (m : Matched) (c : Configuration) : Configuration :=
  { c with
    appDir := m.text "app-dir" c.appDir
    logDir := m.text "log-dir" c.logDir
    dataFile := m.text "data-file" c.dataFile
    image := (m.value? "flashfile").orElse fun _ => c.image
    cflags := (m.value? "cflags").orElse fun _ => c.cflags
    modules := (m.value? "modules").orElse fun _ => c.modules
    testbed := { c.testbed with
      site := m.text "site" c.testbed.site
      name := m.text "exp-name" c.testbed.name
      minutes := m.number "exp-duration" c.testbed.minutes }
    params := { c.params with
      iterations := m.number "iterations" c.params.iterations
      duration := m.number "duration" c.params.duration
      advInterval := m.number "adv-itvl" c.params.advInterval
      advsPerSlice := m.number "advs-slice" c.params.advsPerSlice
      scanInterval := m.number "scan-itvl" c.params.scanInterval
      scanWindow := m.number "scan-win" c.params.scanWindow
      alignStart := m.truth "align-start" c.params.alignStart
      alignEnd := m.truth "align-end" c.params.alignEnd } }

/-- What a run reserves: nodes of the testbed, a number of boards there, or what a boards file
lists. -/
def Matched.spec (m : Matched) (c : Configuration) : ReservationSpec :=
  let nodes := (m.all "iotlab-nodes").flatMap (Text.split ',')
  let requests := if nodes.isEmpty then
      ((m.value? "count").bind natural?).map fun n => List.replicate n "dwm1001"
    else some nodes
  match requests with
  | some requests => .testbed requests c.testbed.name c.testbed.site c.testbed.minutes
  | none => .file (m.text "boards-file" ".boards.yaml")

end ProximityLab.Cli
