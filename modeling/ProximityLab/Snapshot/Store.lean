import ProximityLab.FileSystem.Basic
import ProximityLab.Snapshot.Log

/-!
# Stored snapshots

A data file holds a log of snapshots. `Store.save` replaces it, making the directories that lead to
it, and `Store.load` reads it back.
-/

namespace ProximityLab

/-- Why a data file could not be written or read. -/
inductive StoreError where
  | write (path : String) (cause : FileError)
  | read (path : String) (cause : FileError)
  | malformed (cause : Snapshot.BadLine)
  deriving DecidableEq

/-- The failure for people to read. -/
def StoreError.message : StoreError → String
  | .write path cause => s!"failed to write {path}: {cause.message}"
  | .read path cause => s!"failed to read {path}: {cause.message}"
  | .malformed cause => s!"invalid snapshot on line {cause.line}"

/-- The failure and what led to it, for people to read. -/
def StoreError.causes : StoreError → List String
  | .write path cause => [(StoreError.write path cause).message, cause.message]
  | .read path cause => [(StoreError.read path cause).message, cause.message]
  | e => [e.message]

namespace Store

/-- The directory that has to be there before a file can be written. -/
def directoryOf (path : String) : Option String := (Path.parent? path).filter fun d => !d.isEmpty

/-- Makes the directory of a data file. -/
def makeRoom (fs : FileSystem) (path : String) : Except StoreError Unit × FileSystem :=
  match directoryOf path with
  | some dir =>
    let (made, fs) := fs.makeDirs dir
    (made.mapError (.write dir), fs)
  | none => (.ok (), fs)

/-- Replaces the data file by the given snapshots. -/
def save (fs : FileSystem) (path : String) (ss : List Snapshot) :
    Except StoreError Unit × FileSystem :=
  match makeRoom fs path with
  | (.error e, fs) => (.error e, fs)
  | (.ok (), fs) =>
    match fs.write path (Text.encode (Snapshot.toLog ss)) with
    | .ok fs => (.ok (), fs)
    | .error e => (.error (.write path e), fs)

/-- The snapshots in the data file. -/
def load (fs : FileSystem) (path : String) : Except StoreError (List Snapshot) := do
  let text ← (fs.readText path).mapError (.read path)
  (Snapshot.ofLog text).mapError .malformed

end Store

end ProximityLab
