import ProximityLab.Snapshot.Basic

/-!
# Snapshot logs

A log holds one snapshot per line. `Snapshot.toLog` writes it, `Snapshot.ofLog` reads it: blank
lines are passed over, and the first line that is no snapshot is reported by its number.
-/

namespace ProximityLab.Snapshot

/-- The line, counted from one, that is no snapshot. -/
structure BadLine where
  line : Nat
  deriving DecidableEq, Repr

/-- A snapshot as one line, without its end. -/
def toLine (s : Snapshot) : String := s.toJson.render

/-- The log of a list of snapshots. -/
def toLog (snapshots : List Snapshot) : String :=
  String.join (snapshots.map fun s => s.toLine ++ "\n")

@[simp] theorem toLog_singleton (s : Snapshot) : toLog [s] = s.toLine ++ "\n" := by
  simp [toLog, String.join]

/-- Reads a line as a snapshot. -/
def ofLine? (line : String) : Option Snapshot := Json.read? line >>= ofJson?

/-- Reads numbered lines. -/
def ofLines : List (String × Nat) → Except BadLine (List Snapshot)
  | [] => .ok []
  | (line, number) :: rest =>
    if Text.isBlankText line then ofLines rest
    else match ofLine? line with
      | none => .error ⟨number⟩
      | some s => (ofLines rest).map (s :: ·)

/-- Reads a log. -/
def ofLog (text : String) : Except BadLine (List Snapshot) := ofLines ((Text.lines text).zipIdx 1)

end ProximityLab.Snapshot
