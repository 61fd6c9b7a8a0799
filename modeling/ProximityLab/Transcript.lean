import ProximityLab.Epoch.Summary
import ProximityLab.Telemetry.Sample
import ProximityLab.Text.Blank

/-!
# Transcripts

What a device prints becomes records line by line: `classifyLine` tries telemetry first and epoch
summaries next; every other line is noise. `classify` collects the records of a whole text in
`Findings`, each kind in the order of the lines.

* `classifyLines_append`: the findings of two lists of lines are those of the one and then those of
  the other.
-/

namespace ProximityLab

/-- What one line of output reports. -/
inductive Record where
  | telemetry (s : Sample)
  | epoch (s : Summary)
  deriving DecidableEq

/-- The records of a transcript, each kind in the order of the lines. -/
structure Findings where
  summaries : List Summary
  telemetry : List Sample
  deriving DecidableEq

namespace Findings

/-- No records at all. -/
def empty : Findings := ⟨[], []⟩

/-- The records of one transcript and then those of another. -/
def append (a b : Findings) : Findings :=
  ⟨a.summaries ++ b.summaries, a.telemetry ++ b.telemetry⟩

instance : Append Findings := ⟨append⟩

/-- The findings of one record. -/
def ofRecord : Record → Findings
  | .telemetry s => ⟨[], [s]⟩
  | .epoch s => ⟨[s], []⟩

/-- There are no records. -/
def isEmpty (f : Findings) : Bool := f.summaries.isEmpty && f.telemetry.isEmpty

/-- The samples that one radio produced. -/
def telemetryOf (f : Findings) (r : Radio) : List Sample := f.telemetry.filter (·.radio = r)

@[simp] theorem summaries_append (a b : Findings) :
    (a ++ b).summaries = a.summaries ++ b.summaries := rfl

@[simp] theorem telemetry_append (a b : Findings) :
    (a ++ b).telemetry = a.telemetry ++ b.telemetry := rfl

@[ext] theorem ext {a b : Findings} (hs : a.summaries = b.summaries)
    (ht : a.telemetry = b.telemetry) : a = b := by
  cases a; cases b; simp_all

theorem append_assoc (a b c : Findings) : a ++ b ++ c = a ++ (b ++ c) := by
  ext1 <;> simp [List.append_assoc]

@[simp] theorem empty_append (a : Findings) : empty ++ a = a := rfl

@[simp] theorem append_empty (a : Findings) : a ++ empty = a := by
  ext1 <;> simp [empty]

end Findings

/-- The record on a line, if there is one. -/
def classifyLine (line : String) : Option Record :=
  let line := Text.trim line
  if line.isEmpty then none
  else match Sample.read? line with
    | some s => some (.telemetry s)
    | none => (Summary.read? line).map .epoch

/-- The records on a list of lines. -/
def classifyLines : List String → Findings
  | [] => .empty
  | line :: lines =>
    match classifyLine line with
    | some r => .ofRecord r ++ classifyLines lines
    | none => classifyLines lines

/-- The records in a text. -/
def classify (text : String) : Findings := classifyLines (Text.lines text)

theorem classifyLines_append (a b : List String) :
    classifyLines (a ++ b) = classifyLines a ++ classifyLines b := by
  induction a with
  | nil => simp [classifyLines]
  | cons line lines ih =>
    simp only [List.cons_append, classifyLines]
    split <;> simp [ih, Findings.append_assoc]

end ProximityLab
