/-!
# Commands of the script language

Firmware tools are written in a small command language. A `Command` is one of its sentences; a word
is a list of `Part`s, which are expanded when the command is run. All texts are byte strings: lists
of characters below 256, one for each byte.
-/

namespace ProximityLab.Script

/-- What stands for a parameter's value. -/
inductive ParameterUse (α : Type) where
  | value
  | length
  /-- The word if the parameter is unset, or, if `orEmpty` holds, empty; `assign` keeps the word as
  the value. -/
  | fallback (orEmpty assign : Bool) (word : List α)
  /-- The word if the parameter is set (and not empty, if `orEmpty` holds), else nothing. -/
  | replacement (orEmpty : Bool) (word : List α)
  /-- The value; a parameter that is unset, or, if `orEmpty` holds, empty, is a fault that the word
  explains. -/
  | demanded (orEmpty : Bool) (word : List α)
  /-- The value without a match of the pattern at one of its ends. -/
  | trimmed (atEnd longest : Bool) (pattern : List α)

/-- A part of a word. -/
inductive Part where
  | literal (quoted : Bool) (text : List Char)
  | parameter (quoted : Bool) (name : List Char) (used : ParameterUse Part)
  /-- The value of an arithmetic expression. -/
  | sum (quoted : Bool) (expression : List Part)

/-- A word before its expansion. -/
abbrev Word := List Part

/-- What a redirection does to a stream. -/
inductive Redirect where
  | read (path : Word)
  | write (path : Word)
  | append (path : Word)
  /-- Makes the stream a copy of another one, or closes it. -/
  | duplicate (source : Word)

/-- A redirection of the stream with a number. -/
structure Redirection where
  stream : Nat
  how : Redirect

/-- A command. -/
inductive Command where
  /-- Assignments, words and redirections, on a line of the script. -/
  | simple (line : Nat) (assignments : List (List Char × Word)) (words : List Word)
      (redirections : List Redirection)
  | both (first second : Command)
  | either (first second : Command)
  | negation (c : Command)
  | branch (clauses : List (List Command × List Command)) (otherwise : List Command)
  /-- Repeats the body as long as the condition holds, or until it does. -/
  | loop (awaited : Bool) (condition body : List Command)
  /-- Repeats the body for each item; without items for each argument. -/
  | each (name : List Char) (items : Option (List Word)) (body : List Command)
  | choice (subject : Word) (arms : List (List Word × List Command))
  | group (body : List Command)
  | redirected (c : Command) (redirections : List Redirection)

end ProximityLab.Script
