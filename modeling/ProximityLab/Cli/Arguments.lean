import ProximityLab.Text.Lines

/-!
# Command-line arguments

A command line is read against `OptionRule`s: an option is written with two hyphens and its name, or
with one hyphen and its letter, and takes a value or none. Values follow behind an equals sign or as
the next argument. What is no option is a positional argument; behind a lone `--` everything is.
-/

namespace ProximityLab.Cli

/-- An option: how it is written and what it takes. -/
structure OptionRule where
  long : String
  short : Option Char
  takesValue : Bool
  /-- It may be given more than once. -/
  repeats : Bool
  /-- Its value may look like an option. -/
  takesHyphens : Bool
  /-- The values it takes. -/
  admits : String → Bool

namespace OptionRule

/-- An option without a value. -/
def flag (long : String) (short : Option Char) : OptionRule :=
  ⟨long, short, false, false, false, fun _ => true⟩

/-- An option with a value. -/
def value (long : String) (admits : String → Bool) : OptionRule :=
  ⟨long, none, true, false, false, admits⟩

/-- The option with a letter. -/
def lettered (r : OptionRule) (c : Char) : OptionRule := { r with short := some c }

end OptionRule

/-- Why a command line is not carried out. -/
inductive Refusal where
  | wrong
  | help
  | version
  deriving DecidableEq

/-- What was read from a command line: values by option, and positional arguments. -/
structure Matched where
  values : List (String × String)
  positional : List String

namespace Matched

/-- Nothing was read. -/
def empty : Matched := ⟨[], []⟩

/-- The value of an option. -/
def value? (m : Matched) (long : String) : Option String := m.values.lookup long

/-- All values of an option. -/
def all (m : Matched) (long : String) : List String :=
  (m.values.filter (·.1 = long)).map (·.2)

/-- The option was given. -/
def has (m : Matched) (long : String) : Bool := (m.value? long).isSome

/-- Adds an option with its value. -/
def add (r : OptionRule) (value : String) (m : Matched) : Except Refusal Matched :=
  if r.long = "help" then .error .help
  else if r.long = "version" then .error .version
  else if m.has r.long && !r.repeats then .error .wrong
  else if r.admits value then .ok { m with values := m.values ++ [(r.long, value)] }
  else .error .wrong

end Matched

/-- Reads a cluster of letters. An option that needs a value takes the rest of it, or waits for one.
-/
def readLetters (rules : List OptionRule) (m : Matched) :
    List Char → Except Refusal (Matched × Option OptionRule)
  | [] => .ok (m, none)
  | c :: cs =>
    match rules.find? (·.short = some c) with
    | none => .error .wrong
    | some r =>
      if !r.takesValue then
        match m.add r "" with
        | .ok m => readLetters rules m cs
        | .error e => .error e
      else
        match cs with
        | [] => .ok (m, some r)
        | '=' :: cs => (m.add r (String.ofList cs)).map (·, none)
        | cs => (m.add r (String.ofList cs)).map (·, none)

/-- Reads an option that is written with its name. -/
def readLong (rules : List OptionRule) (m : Matched) (cs : List Char) :
    Except Refusal (Matched × Option OptionRule) :=
  let name := cs.takeWhile (· ≠ '=')
  match rules.find? (·.long.toList = name) with
  | none => .error .wrong
  | some r =>
    match r.takesValue, cs.drop name.length with
    | true, '=' :: value => (m.add r (String.ofList value)).map (·, none)
    | true, _ => .ok (m, some r)
    | false, [] => (m.add r "").map (·, none)
    | false, _ => .error .wrong

/-- Reads arguments up to the name of a command, if names are given. `waiting` is an option that
needs a value, and `plain` says that options are over. -/
def readArguments (rules : List OptionRule) (commands : List String) (waiting : Option OptionRule)
    (plain : Bool) (m : Matched) :
    List String → Except Refusal (Matched × Option (String × List String))
  | [] => if waiting.isSome then .error .wrong else .ok (m, none)
  | arg :: args =>
    let next (r : Except Refusal (Matched × Option OptionRule)) :
        Except Refusal (Matched × Option (String × List String)) :=
      match r with
      | .ok (m, waiting) => readArguments rules commands waiting plain m args
      | .error e => .error e
    match waiting, plain, arg.toList with
    | some r, _, cs =>
      if cs.head? = some '-' && cs ≠ ['-'] && !r.takesHyphens then .error .wrong
      else next ((m.add r arg).map (·, none))
    | none, false, ['-', '-'] => readArguments rules commands none true m args
    | none, false, '-' :: '-' :: cs => next (readLong rules m cs)
    | none, false, '-' :: c :: cs => next (readLetters rules m (c :: cs))
    | none, _, _ =>
      if commands.isEmpty then
        readArguments rules commands none plain { m with positional := m.positional ++ [arg] } args
      else if plain then .error .wrong
      else if arg = "help" then .error .help
      else if commands.contains arg then .ok (m, some (arg, args))
      else .error .wrong

end ProximityLab.Cli
