import ProximityLab.Cli.Run

/-!
# The program

Reads the files below the working directory, the variables and the clock, hands them to `Cli.run`,
and prints and writes what comes back.
-/

namespace ProximityLab.Program

/-- The variables that the program looks at or passes on. -/
def knownVariables : List String :=
  [Cli.configVar, "IOTLAB_USER", "IOTLAB_PASSWORD", "PATH", "HOME"]

/-- A path below the working directory, said from there. -/
def localPath (here path : String) : String :=
  let start := here ++ "/"
  if Text.startsWith start path then String.ofList (path.toList.drop start.length) else path

/-- The variables of the surroundings; search paths below the working directory are said from
there. -/
def readVariables (here : String) : IO (List (String × String)) := do
  let given ← knownVariables.filterMapM fun name => do
    return (← IO.getEnv name).map (name, ·)
  return given.map fun (name, value) =>
    if name = "PATH" then
      (name, ":".intercalate ((Text.split ':' value).map (localPath here)))
    else (name, value)

/-- Adds what lies below a directory. `depth` bounds how far down. -/
def readBelow (dir : String) (depth : Nat) (place : Place) (fs : FileSystem) : IO FileSystem := do
  match depth with
  | 0 => return fs
  | depth + 1 =>
    let path ← IO.FS.realPath dir
    let mut fs := fs
    for entry in ← path.readDir do
      let here := place ++ [entry.fileName]
      if ← entry.path.isDir then
        fs ← readBelow entry.path.toString depth here { fs with dirs := fs.dirs ++ [here] }
      else if ← entry.path.pathExists then
        fs := fs.put here (← IO.FS.readBinFile entry.path).toList
    return fs

/-- The path of a place. -/
def pathOf (place : Place) : String := "/".intercalate place

/-- Writes the directories and files that are new or changed. -/
def writeChanges (before after : FileSystem) : IO Unit := do
  for place in after.dirs do
    if !before.isDir place then IO.FS.createDirAll (pathOf place)
  for (place, bytes) in after.files do
    if before.content? place != some bytes then
      IO.FS.writeBinFile (pathOf place) ⟨bytes.toArray⟩

/-- The clock: when the program started, in seconds since the start of 1970. -/
def readClock : IO Int := do
  let started ← IO.FS.realPath "/proc/self"
  return (← started.metadata).modified.sec

end ProximityLab.Program

open ProximityLab ProximityLab.Program in
def main (args : List String) : IO UInt32 := do
  let here := (← IO.FS.realPath ".").toString
  let files ← readBelow "." 32 [] .empty
  let seconds ← readClock
  let surroundings : Cli.Surroundings :=
    { vars := ← readVariables here
      files
      clock := fun ms => DateTime.ofSeconds (seconds + ms / 1000) }
  let outcome := Cli.run (args.map (localPath here)) surroundings
  writeChanges files outcome.files
  IO.print outcome.output
  IO.eprint outcome.errors
  return UInt32.ofNat outcome.code
