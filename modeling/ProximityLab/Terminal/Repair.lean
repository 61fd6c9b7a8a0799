import ProximityLab.FileSystem.Basic
import ProximityLab.Text.Lines

/-!
# Repair of terminal logs

Connecting to a device can leave garbage in front of the first prompt of its terminal log.
`repairLog?` cuts the first line back to its last `>` and drops ill-formed bytes; a log without a
`>` on its first line needs no repair.
-/

namespace ProximityLab

/-- The part of a line from the last occurrence of a character on, if it occurs. -/
def fromLast? (c : Char) (line : List Char) : Option (List Char) :=
  if c ∈ line then some (c :: (line.reverse.takeWhile (· != c)).reverse) else none

/-- The first line and, if there is a line feed, what follows it. -/
def firstLine (cs : List Char) : List Char × List Char :=
  (cs.takeWhile (· != '\n'), (cs.dropWhile (· != '\n')).drop 1)

/-- The content of a repaired log; `none` if the log needs no repair. -/
def repairLog? (content : List UInt8) : Option (List UInt8) :=
  let (first, rest) := firstLine (Text.lenientChars content)
  (fromLast? '>' first).map fun kept => (kept ++ '\n' :: rest).flatMap Text.encodeChar

/-- Repairs the log at a path and says whether that was needed. -/
def FileSystem.repairLog (fs : FileSystem) (path : String) : Except FileError Bool × FileSystem :=
  match fs.read path with
  | .error e => (.error e, fs)
  | .ok content =>
    match repairLog? content with
    | none => (.ok false, fs)
    | some repaired =>
      match fs.write path repaired with
      | .ok fs => (.ok true, fs)
      | .error e => (.error e, fs)

end ProximityLab
