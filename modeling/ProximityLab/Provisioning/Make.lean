import ProximityLab.Provisioning.Tool
import ProximityLab.Script.Run
import ProximityLab.Terminal.Framer

/-!
# The make tool

The firmware tool of an application is the program `make`, which runs targets in the directory of
the application. It is a script that is found through the variable `PATH`. A `RunningScript` is a
script that runs with its input and output connected to a control channel; `MakeTool.firmware` is
the tool as the rest of the library sees it.
-/

namespace ProximityLab

/-- The make tool of an application, with the variables of its surroundings. -/
structure MakeTool where
  appDir : String
  surroundings : List (String × String)

/-- Variables with others in front. -/
def Variables.over (v : Variables) (below : List (String × String)) : List (String × String) :=
  v.entries ++ below.filter fun b => (v.get? b.1).isNone

namespace MakeTool

/-- The name of the program. -/
def program : String := "make"

/-- The first program in a list of directories; the flag says that something was there that is no
program. -/
def findIn (fs : FileSystem) : List String → Bool → Except FileError (String × List UInt8)
  | [], denied => .error (if denied then .denied else .notFound)
  | dir :: dirs, denied =>
    let path := if dir.isEmpty then program else Path.join dir program
    match fs.read path with
    | .ok content => .ok (path, content)
    | .error .isDirectory => findIn fs dirs true
    | .error _ => findIn fs dirs denied

/-- The script runs under a shell that is there. -/
def isShellScript (content : List UInt8) : Bool :=
  let first := (content.map fun b => Char.ofNat b.toNat).takeWhile (· ≠ '\n')
  match first with
  | '#' :: '!' :: rest =>
    let interpreter := (rest.dropWhile (· = ' ')).takeWhile (· ≠ ' ')
    ["/bin/sh", "/bin/dash", "/bin/bash", "/usr/bin/sh"].contains (String.ofList interpreter)
  | _ => true

/-- How the program is started for a target. -/
def start (t : MakeTool) (fs : FileSystem) (call : ToolCall) :
    Except DeviceError Script.Invocation :=
  let vars := call.vars.over t.surroundings
  let dirs := Text.split ':' ((vars.lookup "PATH").getD "")
  let failed (cause : FileError) : DeviceError := .spawn call.node call.target cause.message
  match findIn fs dirs false with
  | .error cause => .error (failed cause)
  | .ok (path, content) =>
    if isShellScript content then
      .ok ⟨path, content, ["--no-print-directory", "-C", t.appDir, call.target], vars, fs⟩
    else .error (failed .notFound)

/-- Runs a target to its end. -/
def build (t : MakeTool) (fs : FileSystem) (call : ToolCall) : Attempt Unit × FileSystem :=
  match t.start fs call with
  | .error cause => (.failed cause, fs)
  | .ok i =>
    let p := Script.run i [] true
    let status := p.ending.getD (.signal 9)
    if status.isSuccess then (.done (), p.files)
    else
      (.failed (.make call.node call.target status.text (Text.trim (Text.decodeLossy p.errors))),
        p.files)

end MakeTool

/-! ## Processes -/

namespace Script.Invocation

/-- What has become of a script that was sent some lines. -/
def after (i : Invocation) (lines : List String) : Progress :=
  Script.run i (Script.charsOf (String.join (lines.map (· ++ "\n")))) false

/-- A script takes no more lines once it has ended or closed its input. -/
def isDeaf (i : Invocation) (lines : List String) : Bool :=
  (i.after lines).ending.isSome || !(i.after lines).listens

end Script.Invocation

/-- Why a line does not reach a process. -/
def brokenPipe : ChannelError := .io "Broken pipe (os error 32)"

/-- The count of bytes that are read from a process at a time. -/
def chunkSize : Nat := 1024

/-- A script with its input and output connected to a control channel. -/
structure RunningScript where
  invocation : Script.Invocation
  sent : List String
  /-- How many bytes of its output were read. -/
  taken : Nat
  framer : Framer
  /-- Lines that nobody has read. -/
  pending : List String
  /-- It can be sent lines. -/
  writable : Bool
  /-- Its output can be read. -/
  readable : Bool

namespace RunningScript

/-- A process that has just been started. -/
def new (i : Script.Invocation) : RunningScript := ⟨i, [], 0, .empty, [], true, true⟩

/-- Sends a line. -/
def send (line : String) (p : RunningScript) : Except ChannelError Unit × RunningScript :=
  if !p.writable then (.error .closed, p)
  else if p.invocation.isDeaf p.sent then (.error brokenPipe, p)
  else (.ok (), { p with sent := p.sent ++ [line] })

/-- Ends the process; what was read already can still be taken. -/
def close (p : RunningScript) : RunningScript := { p with writable := false, readable := false }

/-- What waiting for a line ends with. -/
inductive Next where
  | line (text : String)
  | eof
  /-- The process waits for a line itself. -/
  | hung

/-- Takes a line, reading at most `fuel` chunks. -/
def nextWithin : Nat → RunningScript → Next × RunningScript
  | 0, p => (.hung, p)
  | fuel + 1, p =>
    match p.pending with
    | line :: lines => (.line line, { p with pending := lines })
    | [] =>
      if !p.readable then (.eof, p)
      else
        let progress := p.invocation.after p.sent
        let chunk := (progress.output.drop p.taken).take chunkSize
        if !chunk.isEmpty then
          let (lines, framer) := p.framer.push chunk
          nextWithin fuel
            { p with taken := p.taken + chunk.length, framer := framer, pending := lines }
        else if progress.ending.isSome then
          let (lines, framer) := p.framer.finish
          nextWithin fuel { p with framer := framer, pending := lines, readable := false }
        else (.hung, p)

/-- Takes a line. -/
def next (p : RunningScript) : Next × RunningScript :=
  nextWithin ((p.invocation.after p.sent).output.length + 3) p

end RunningScript

/-! ## Processes as devices -/

/-- The time that a process takes to answer, in milliseconds. -/
def latency : Nat := 1

namespace Script.Invocation

/-- Frames output in chunks, at most `fuel` of them. -/
def frame : Nat → Framer → List UInt8 → List String × Framer
  | 0, f, _ => ([], f)
  | fuel + 1, f, bytes =>
    if bytes.isEmpty then ([], f)
    else
      let (lines, f) := f.push (bytes.take chunkSize)
      let (more, f) := frame fuel f (bytes.drop chunkSize)
      (lines ++ more, f)

/-- The lines that appear when the last of some lines was sent, with the state of the framing and
the count of bytes behind them. -/
def framed (i : Invocation) (lines : List String) : List String × Framer × Nat :=
  (List.range (lines.length + 1)).foldl (fun (_, framer, taken) n =>
    let output := (i.after (lines.take n)).output
    let (shown, framer) := frame (output.length + 1) framer (output.drop taken)
    (shown, framer, output.length)) ([], .empty, 0)

/-- The output that appears when the last of some lines was sent. -/
def reply (i : Invocation) (lines : List String) : List Timed :=
  let (shown, framer, _) := i.framed lines
  let timed (shown : List String) : List Timed := shown.map fun l => ⟨latency, .line l⟩
  if (i.after lines).ending.isSome then
    timed (shown ++ framer.finish.1) ++ [⟨latency, .eof⟩]
  else timed shown

/-- The device that a script plays. -/
def behaviour (i : Invocation) : Behaviour where
  banner := i.reply []
  respond sent line :=
    if i.isDeaf sent then .refused brokenPipe else .accepted (i.reply (sent ++ [line]))
  closeFault := none
  leaves sent := (i.after sent).writes

end Script.Invocation

namespace MakeTool

/-- Opens the terminal of a device. -/
def openScript (t : MakeTool) (fs : FileSystem) (node : String) (vars : Variables) :
    Except DeviceError RunningScript :=
  (t.start fs ⟨node, vars, ToolCall.term⟩).map RunningScript.new

/-- The make tool as a firmware tool. -/
def firmware (t : MakeTool) : FirmwareTool where
  build _ fs call := t.build fs call
  openTerminal _ fs call :=
    match t.start fs call with
    | .error cause => (.failed cause, fs)
    | .ok i => (.done i.behaviour, fs)

end MakeTool

end ProximityLab
