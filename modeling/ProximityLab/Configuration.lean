import ProximityLab.Campaign.Params
import ProximityLab.FileSystem.Path
import ProximityLab.Toml.Reader
import ProximityLab.Toml.Record

/-!
# Configuration

A `Configuration` says how an experiment is run: where the firmware is, where results go, how long
things may take, what the devices are told and how the testbed is reached. It is read from a TOML
file in which every member may be missing (`Configuration.ofToml?`).
-/

namespace ProximityLab

/-- Access to the testbed and what is reserved there. -/
structure TestbedAccess where
  url : String
  user : Option String
  password : Option String
  site : String
  /-- The name of reservations. -/
  name : String
  /-- The length of reservations in minutes. -/
  minutes : Nat
  /-- The time between two questions for the state of a reservation, in milliseconds. -/
  pollInterval : Nat
  /-- How long a reservation may wait before it runs, in seconds. -/
  waitTimeout : Nat
  deriving DecidableEq

/-- How an experiment is run. -/
structure Configuration where
  /-- The directory of the firmware. -/
  appDir : String
  /-- The directory of terminal logs and of the data file. -/
  logDir : String
  dataFile : String
  /-- With fewer environments there is no run. -/
  minNodes : Nat
  /-- The time that terminals are given to come up, in milliseconds. -/
  settleDelay : Nat
  /-- What is added to the deadline of a bounded campaign, in seconds. -/
  slack : Binary64
  /-- How long a stopped node may go on printing, in seconds. -/
  stopGrace : Nat
  /-- How long a short command may take, in milliseconds. -/
  commandTimeout : Nat
  /-- Compiler options. -/
  cflags : Option String
  /-- Additional modules of the firmware. -/
  modules : Option String
  /-- A firmware image; when set nothing is compiled. -/
  image : Option String
  params : Params
  testbed : TestbedAccess
  deriving DecidableEq

namespace TestbedAccess

/-- What holds unless a configuration says otherwise. -/
def default : TestbedAccess :=
  { url := "https://www.iot-lab.info/api", user := none, password := none, site := "lille",
    name := "dwm1001-pepper", minutes := 120, pollInterval := 5000, waitTimeout := 600 }

/-- The members in their order. -/
def schema : Toml.Schema :=
  ["api_url", "user", "password", "site", "name", "duration_min", "poll_interval_ms",
    "wait_timeout_s"]

/-- The time between two questions for the state of a reservation. -/
def pollSpan (t : TestbedAccess) : TimeSpan := .ofMillis t.pollInterval

/-- How long a reservation may wait before it runs. -/
def waitSpan (t : TestbedAccess) : TimeSpan := .ofSeconds t.waitTimeout

/-- The access to the testbed that a value gives. -/
def ofToml? (v : Toml.Value) : Option TestbedAccess := do
  let text (default : String) := Toml.member Toml.Value.toText? default
  let perhaps := Toml.member (fun v => v.toText?.map some) none
  let count (width default : Nat) := Toml.member (Toml.Value.toNat? (Nat.pow 2 width)) default
  match ← v.members? schema with
  | [url, user, password, site, name, minutes, pollInterval, waitTimeout] =>
    return {
      url := ← text default.url url
      user := ← perhaps user
      password := ← perhaps password
      site := ← text default.site site
      name := ← text default.name name
      minutes := ← count 32 default.minutes minutes
      pollInterval := ← count 64 default.pollInterval pollInterval
      waitTimeout := ← count 64 default.waitTimeout waitTimeout }
  | _ => none

end TestbedAccess

/-- The campaign parameters that a value gives. -/
def Params.ofToml? (v : Toml.Value) : Option Params := do
  let count (default : Nat) := Toml.member (Toml.Value.toNat? 0x100000000) default
  let flag (default : Bool) := Toml.member Toml.Value.toBool? default
  match ← v.members? (Params.schema.map (·.name)) with
  | [iterations, duration, advInterval, advsPerSlice, scanInterval, scanWindow, alignStart,
      alignEnd] =>
    return {
      iterations := ← count default.iterations iterations
      duration := ← count default.duration duration
      advInterval := ← count default.advInterval advInterval
      advsPerSlice := ← count default.advsPerSlice advsPerSlice
      scanInterval := ← count default.scanInterval scanInterval
      scanWindow := ← count default.scanWindow scanWindow
      alignStart := ← flag default.alignStart alignStart
      alignEnd := ← flag default.alignEnd alignEnd }
  | _ => none

namespace Configuration

/-- Compiler options that make a campaign command return when the campaign ends, and switch off the
echo, so that the output of a command ends exactly at its prompt. -/
def defaultFlags : String := "-DCONFIG_PEPPER_SHELL_BLOCKING=1 -DCONFIG_SHELL_NO_ECHO=1"

/-- What holds unless a file says otherwise. -/
def default : Configuration :=
  { appDir := ".", logDir := "logs/exp", dataFile := "exp_data.log", minNodes := 2,
    settleDelay := 3000, slack := .ofNat 3, stopGrace := 10, commandTimeout := 5000,
    cflags := some defaultFlags, modules := none, image := none, params := .default,
    testbed := .default }

/-- The members in their order. -/
def schema : Toml.Schema :=
  ["app_dir", "log_dir", "data_file", "min_nodes", "settle_delay_ms", "timeout_slack_s",
    "stop_grace_s", "command_timeout_ms", "cflags", "modules", "flashfile", "params", "testbed"]

/-- The configuration that a table gives. -/
def ofTable? (v : Toml.Value) : Option Configuration := do
  let text (default : String) := Toml.member Toml.Value.toText? default
  let perhaps (default : Option String) := Toml.member (fun v => v.toText?.map some) default
  let count (default : Nat) := Toml.member (Toml.Value.toNat? 0x10000000000000000) default
  match ← v.members? schema with
  | [appDir, logDir, dataFile, minNodes, settleDelay, slack, stopGrace, commandTimeout, cflags,
      modules, image, params, testbed] =>
    return {
      appDir := ← text default.appDir appDir
      logDir := ← text default.logDir logDir
      dataFile := ← text default.dataFile dataFile
      minNodes := ← count default.minNodes minNodes
      settleDelay := ← count default.settleDelay settleDelay
      slack := ← Toml.member Toml.Value.toNumber? default.slack slack
      stopGrace := ← count default.stopGrace stopGrace
      commandTimeout := ← count default.commandTimeout commandTimeout
      cflags := ← perhaps default.cflags cflags
      modules := ← perhaps default.modules modules
      image := ← perhaps default.image image
      params := ← Toml.member Params.ofToml? default.params params
      testbed := ← Toml.member TestbedAccess.ofToml? default.testbed testbed }
  | _ => none

/-- Reads a configuration file. -/
def ofToml? (text : String) : Option Configuration := (Toml.read? text).bind (ofTable? <| .table ·)

/-! ## Paths and spans -/

/-- The path of the data file. -/
def dataPath (c : Configuration) : String := Path.join c.logDir c.dataFile

/-- The path of the terminal log of a node. -/
def termlogPath (c : Configuration) (node : String) : String := Path.join c.logDir (node ++ ".log")

def settleSpan (c : Configuration) : TimeSpan := .ofMillis c.settleDelay

def commandSpan (c : Configuration) : TimeSpan := .ofMillis c.commandTimeout

def graceSpan (c : Configuration) : TimeSpan := .ofSeconds c.stopGrace

/-- What is added to the deadline of a bounded campaign: nothing for a negative number and for one
that is none. -/
def slackSpan (c : Configuration) : Except TimeOverflow TimeSpan :=
  let x := c.slack
  match if x.isNaN || x.negative then some TimeSpan.zero else TimeSpan.ofFloatSeconds? x with
  | some d => .ok d
  | none => .error .overflow

end Configuration

end ProximityLab
