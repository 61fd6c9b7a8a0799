import ProximityLab.Configuration
import ProximityLab.Provisioning.Tool

/-!
# Fleets of devices

A `Fleet` provisions devices with a firmware tool: it flashes a device, resets it and opens its
terminal. It keeps every terminal that was ever opened, and a registry of those that have yet to be
closed, one for each device. `Fleet.provision` closes the terminal that it replaces, and
`Fleet.closeAll` closes what is registered; nothing else closes a terminal.

The `journal` of a fleet lists what was done to the terminals, in order.
-/

namespace ProximityLab

/-- The build settings that go to the firmware tool. -/
structure Recipe where
  cflags : Option String
  modules : Option String
  /-- A firmware image that is there already. -/
  image : Option String
  deriving DecidableEq

namespace Recipe

/-- An environment's variables with a setting in front of what they say. -/
def override (name : String) (setting : Option String) (v : Variables) : Variables :=
  match setting with
  | some value => v.set name value
  | none => v

/-- The variables that go to the firmware tool for an environment. -/
def vars (r : Recipe) (e : Environment) : Variables :=
  override "FLASHFILE" r.image (override "USEMODULE" r.modules (override "CFLAGS" r.cflags e.vars))

/-- An image that is there is flashed as it is. -/
def flashTarget (r : Recipe) : String :=
  if r.image.isSome then ToolCall.flashOnly else ToolCall.flash

end Recipe

/-- The build settings of a configuration. -/
def Configuration.recipe (c : Configuration) : Recipe := ⟨c.cflags, c.modules, c.image⟩

/-- Something that was done to a terminal, or the release of the devices. -/
inductive Event where
  | opened (terminal : Nat)
  | sent (terminal time : Nat) (line : String)
  | closed (terminal : Nat)
  | released
  deriving DecidableEq

/-- A terminal and the device it was opened for. -/
structure Connection where
  node : String
  terminal : Terminal

/-- A firmware tool and the terminals that it has opened. -/
structure Fleet where
  tool : FirmwareTool
  recipe : Recipe
  files : FileSystem
  /-- All uses of the tool, failing ones too. -/
  calls : List ToolCall
  /-- All terminals, in the order in which they were opened. -/
  connections : List Connection
  /-- The terminals that have yet to be closed, by device. -/
  registry : List (String × Nat)
  journal : List Event

namespace Fleet

/-- A fleet without devices. -/
def new (tool : FirmwareTool) (recipe : Recipe) (files : FileSystem) : Fleet :=
  ⟨tool, recipe, files, [], [], [], []⟩

/-- Goes on after an attempt that was successful. -/
def andThen {α β : Type} (r : Attempt α × Fleet) (next : α → Fleet → Attempt β × Fleet) :
    Attempt β × Fleet :=
  match r with
  | (.done a, f) => next a f
  | (.failed cause, f) => (.failed cause, f)
  | (.panicked, f) => (.panicked, f)

/-- Runs a target. -/
def build (call : ToolCall) (f : Fleet) : Attempt Unit × Fleet :=
  let (result, files) := f.tool.build f.calls f.files call
  (result, { f with files := files, calls := f.calls ++ [call] })

/-- Opens a terminal and gives its number. -/
def openTerminal (now : Nat) (call : ToolCall) (f : Fleet) : Attempt Nat × Fleet :=
  let (result, files) := f.tool.openTerminal f.calls f.files call
  let f := { f with files := files, calls := f.calls ++ [call] }
  match result with
  | .done behaviour =>
    (.done f.connections.length,
      { f with
        connections := f.connections ++ [⟨call.node, .opened now behaviour⟩]
        journal := f.journal ++ [.opened f.connections.length] })
  | .failed cause => (.failed cause, f)
  | .panicked => (.panicked, f)

/-- Closes a terminal, however often it was closed before. The first time, what the device leaves
behind goes into the files. A failure to close changes nothing. -/
def close (i : Nat) (f : Fleet) : Fleet :=
  match f.connections[i]? with
  | none => f
  | some c =>
    let t := c.terminal
    { f with
      files := if t.closed then f.files else f.files.apply (t.behaviour.leaves t.sent)
      connections := f.connections.set i { c with terminal := t.close.2 }
      journal := f.journal ++ [.closed i] }

/-- The registered terminal of a device. -/
def registered? (f : Fleet) (node : String) : Option Nat := f.registry.lookup node

/-- Registers a terminal. One that was registered for the same device is closed. -/
def register (node : String) (i : Nat) (f : Fleet) : Fleet :=
  let g := { f with registry := f.registry.filter (·.1 ≠ node) ++ [(node, i)] }
  match f.registered? node with
  | some old => g.close old
  | none => g

/-- Flashes and resets the device of an environment, opens its terminal and gives its name. -/
def provision (now : Nat) (e : Environment) (f : Fleet) : Attempt String × Fleet :=
  match e.node with
  | .error cause => (.failed cause, f)
  | .ok node =>
    let vars := f.recipe.vars e
    andThen (f.build ⟨node, vars, f.recipe.flashTarget⟩) fun _ f =>
    andThen (f.build ⟨node, vars, ToolCall.reset⟩) fun _ f =>
    andThen (f.openTerminal now ⟨node, vars, ToolCall.term⟩) fun i f =>
    (.done node, f.register node i)

/-- The count of terminals that have yet to be closed. -/
def openCount (f : Fleet) : Nat := f.registry.length

/-- Closes all registered terminals and gives their count. -/
def closeAll (f : Fleet) : Nat × Fleet :=
  (f.registry.length, (f.registry.map (·.2)).foldl (fun f i => f.close i) { f with registry := [] })

/-- The entries for what the device behind a terminal has taken of some lines. -/
def entries (i : Nat) (trials : List Trial) : List Event :=
  (trials.filter (·.taken)).map fun a => .sent i a.time a.line

/-- Takes back a terminal that was in use; what was sent meanwhile goes into the journal, each line
with its moment. -/
def giveBack (i : Nat) (t : Terminal) (f : Fleet) : Fleet :=
  match f.connections[i]? with
  | none => f
  | some c =>
    { f with
      connections := f.connections.set i { c with terminal := t }
      journal := f.journal ++ entries i (t.trials.drop c.terminal.trials.length) }

end Fleet

end ProximityLab
