import ProximityLab.Text.Blank
import ProximityLab.Text.Lines
import ProximityLab.Text.Utf8

/-!
# Framing of terminal output

A terminal delivers bytes in chunks. `Framer.push` cuts them into lines and keeps the bytes of the
unfinished line; `Framer.finish` hands those out at the end. The shell prints its prompt without a
line feed, so an unfinished line that consists of the prompt only is handed out at once, and output
printed behind a prompt on the same line becomes a line of its own.
-/

namespace ProximityLab

/-- The line that stands for a prompt. -/
def prompt : String := ">"

/-- A line that is the prompt, apart from blanks. -/
def isPrompt (line : String) : Bool := Text.trim line == prompt

/-- The bytes of the unfinished line. -/
structure Framer where
  pending : List UInt8
  deriving DecidableEq

namespace Framer

/-- Nothing is pending. -/
def empty : Framer := ⟨[]⟩

/-- The lines that one finished line of bytes gives: carriage returns at its end are dropped, and
what is printed behind a prompt follows the prompt. -/
def linesOfBytes (bytes : List UInt8) : List String :=
  match Text.dropWhileEnd (· == '\r') (Text.lenientChars bytes) with
  | '>' :: ' ' :: rest =>
    if rest.all Text.isBlank then [String.ofList ('>' :: ' ' :: rest)]
    else [prompt, String.ofList rest]
  | line => [String.ofList line]

/-- Takes a chunk of bytes and gives the lines it completes. -/
def push (f : Framer) (bytes : List UInt8) : List String × Framer :=
  let pieces := Text.splitOn 10 (f.pending ++ bytes)
  let finished := pieces.dropLast.flatMap linesOfBytes
  let rest := pieces.getLast?.getD []
  if isPrompt (Text.decodeLenient rest) then (finished ++ [prompt], empty) else (finished, ⟨rest⟩)

/-- Gives what is left as a line. -/
def finish (f : Framer) : List String × Framer :=
  (if f.pending.isEmpty then [] else linesOfBytes f.pending, empty)

/-- The lines of a sequence of chunks and of what is left behind them. -/
def run (f : Framer) : List (List UInt8) → List String
  | [] => f.finish.1
  | chunk :: chunks =>
    let (lines, f) := f.push chunk
    lines ++ f.run chunks

end Framer

end ProximityLab
