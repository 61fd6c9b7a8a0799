import ProximityLab.Script.Builtin
import ProximityLab.Script.Expansion
import ProximityLab.Script.Reader

/-!
# Running scripts

`Script.run` runs a script with arguments, variables and input until it ends or waits for more
input. A run is a function of what it is given: with more input the same script prints the same at
first, so a script that waits can be continued by running it again.
-/

namespace ProximityLab.Script

/-- Connects a stream as a redirection says; a failure comes with a message. -/
def redirect (r : Redirection) (m : Machine) : Except (List Char) Machine := do
  let opened (path : List Char) (write : Bool) (behind : Bool) (m : Machine) :
      Except (List Char) Machine :=
    let text := textOf path
    if text = "/dev/null" then .ok (m.connect r.stream (some .void))
    else if write then
      match if behind then m.files.append text [] else m.files.write text [] with
      | .ok _ => .ok ((m.change ⟨text, [], behind⟩).connect r.stream (some (.file text)))
      | .error .notFound =>
        .error (charsOf "cannot create " ++ path ++ charsOf ": Directory nonexistent")
      | .error .denied => .error (charsOf "cannot create " ++ path ++ charsOf ": Permission denied")
      | .error .isDirectory =>
        .error (charsOf "cannot create " ++ path ++ charsOf ": Is a directory")
      | .error _ => .error (charsOf "cannot create " ++ path ++ charsOf ": Not a directory")
    else
      match m.files.read text with
      | .ok bytes => .ok (m.connect r.stream (some (.text (bytes.map fun b => Char.ofNat b.toNat))))
      | .error _ => .error (charsOf "cannot open " ++ path ++ charsOf ": No such file")
  match r.how with
  | .read word =>
    let (path, m) ← textOfWord word m
    opened path false false m
  | .write word =>
    let (path, m) ← textOfWord word m
    opened path true false m
  | .append word =>
    let (path, m) ← textOfWord word m
    opened path true true m
  | .duplicate word =>
    let (source, m) ← textOfWord word m
    if source = ['-'] then return m.connect r.stream none
    else
      match (decimal? source).bind m.stream? with
      | some s => return m.connect r.stream (some s)
      | none => .error (source ++ charsOf ": Bad file descriptor")

/-- Connects streams as redirections say, one after the other. -/
def redirectAll : List Redirection → Machine → Except (List Char) Machine
  | [], m => .ok m
  | r :: rs, m => do redirectAll rs (← redirect r m)

/-- The streams of one state with the rest of the state of another. -/
def restoreStreams (before after : Machine) : Machine := { after with streams := before.streams }

/-- Gives parameters the values of assignments. -/
def assignAll : List (List Char × Word) → Machine → Except (List Char) Machine
  | [], m => .ok m
  | (name, word) :: rest, m => do
    let (value, m) ← textOfWord word m
    assignAll rest (m.assign name value)

/-- The parameters of one state with the rest of another, as far as names are concerned. -/
def restoreNames (names : List (List Char)) (before after : Machine) : Machine :=
  names.foldl (fun m name =>
    match before.variableOf name with
    | some value => m.assign name value
    | none => m.unassign name) after

/-- A file that was read before a command, and by the command, is read on where the command ended.
-/
def continueReading (before connected ran after : Machine) : Machine :=
  match before.stream? 0 with
  | some (.text rest) =>
    if connected.stream? 0 = some (.text rest) then after.connect 0 (ran.stream? 0) else after
  | _ => after

/-- Runs a simple command. -/
def runSimple (line : Nat) (assignments : List (List Char × Word)) (words : List Word)
    (redirections : List Redirection) (m : Machine) : Flow × Machine :=
  match fields words m with
  | .error message => fault line message m
  | .ok ([], m) =>
    match redirectAll redirections m with
    | .error message => done 2 (m.complain line message)
    | .ok r =>
      match assignAll assignments (restoreStreams m r) with
      | .error message => fault line message m
      | .ok m => done 0 m
  | .ok (name :: args, m) =>
    let special := specialNames.contains (String.ofList name)
    match redirectAll redirections m with
    | .error message => if special then fault line message m else done 2 (m.complain line message)
    | .ok r =>
      match assignAll assignments r with
      | .error message => fault line message m
      | .ok r =>
        if String.ofList name = "exec" then
          match args with
          | [] => done 0 r
          | program :: _ =>
            (.ended (.code 127),
              r.complain line (charsOf "exec: " ++ program ++ charsOf ": not found"))
        else
          let (flow, ran) := runBuiltin line name args r
          let after := continueReading m r ran (restoreStreams m ran)
          (flow, if special then after else restoreNames (assignments.map (·.1)) m after)

/-- The flow behind a loop that was left. -/
def leaveOnce : Nat → Bool → Flow
  | levels, again => if levels ≤ 1 then .next else .leave (levels - 1) again

mutual

/-- Runs a command. Under `tested` its failure does not end the script. -/
def runCommand : Nat → Bool → Command → Machine → Flow × Machine
  | 0, _, _, m => (.waiting, m)
  | fuel + 1, tested, command, m =>
    match command with
    | .simple line assignments words redirections =>
      let (flow, m) := runSimple line assignments words redirections m
      if flow = .next && m.strict && !tested && m.status ≠ 0 then (.ended (.code m.status), m)
      else (flow, m)
    | .both a b =>
      match runCommand fuel true a m with
      | (.next, m) => if m.status = 0 then runCommand fuel tested b m else (.next, m)
      | other => other
    | .either a b =>
      match runCommand fuel true a m with
      | (.next, m) => if m.status = 0 then (.next, m) else runCommand fuel tested b m
      | other => other
    | .negation a =>
      match runCommand fuel true a m with
      | (.next, m) => done (if m.status = 0 then 1 else 0) m
      | other => other
    | .group body => runAll fuel tested body m
    | .branch clauses otherwise => runBranch fuel tested clauses otherwise m
    | .loop awaited condition body => runLoop fuel tested awaited condition body 0 m
    | .each name items body =>
      match items with
      | none => runEach fuel tested name m.arguments body 0 m
      | some words =>
        match fields words m with
        | .error message => fault 1 message m
        | .ok (values, m) => runEach fuel tested name values body 0 m
    | .choice subject arms =>
      match textOfWord subject m with
      | .error message => fault 1 message m
      | .ok (text, m) => runChoice fuel tested text arms m
    | .redirected c redirections =>
      match redirectAll redirections m with
      | .error message => done 2 (m.complain 1 message)
      | .ok r =>
        let (flow, after) := runCommand fuel tested c r
        (flow, restoreStreams m after)

/-- Runs commands one after the other. -/
def runAll : Nat → Bool → List Command → Machine → Flow × Machine
  | 0, _, _, m => (.waiting, m)
  | _, _, [], m => (.next, m)
  | fuel + 1, tested, c :: cs, m =>
    match runCommand fuel tested c m with
    | (.next, m) => runAll fuel tested cs m
    | other => other

/-- Runs what belongs to the first condition that holds. -/
def runBranch : Nat → Bool → List (List Command × List Command) → List Command → Machine →
    Flow × Machine
  | 0, _, _, _, m => (.waiting, m)
  | fuel + 1, tested, [], otherwise, m => runAll fuel tested otherwise (m.withStatus 0)
  | fuel + 1, tested, (condition, body) :: clauses, otherwise, m =>
    match runAll fuel true condition m with
    | (.next, m) =>
      if m.status = 0 then runAll fuel tested body (m.withStatus 0)
      else runBranch fuel tested clauses otherwise m
    | other => other

/-- Repeats a body; the status is that of its last round. -/
def runLoop : Nat → Bool → Bool → List Command → List Command → Nat → Machine → Flow × Machine
  | 0, _, _, _, _, _, m => (.waiting, m)
  | fuel + 1, tested, awaited, condition, body, status, m =>
    match runAll fuel true condition m with
    | (.next, m) =>
      if (m.status = 0) == awaited then done status m
      else
        match runAll fuel tested body (m.withStatus 0) with
        | (.next, m) => runLoop fuel tested awaited condition body m.status m
        | (.leave levels again, m) =>
          if again && levels ≤ 1 then runLoop fuel tested awaited condition body m.status m
          else (leaveOnce levels again, m)
        | other => other
    | (.leave levels again, m) => (leaveOnce levels again, m)
    | other => other

/-- Repeats a body for each of some values. -/
def runEach : Nat → Bool → List Char → List (List Char) → List Command → Nat → Machine →
    Flow × Machine
  | 0, _, _, _, _, _, m => (.waiting, m)
  | _ + 1, _, _, [], _, status, m => done status m
  | fuel + 1, tested, name, value :: values, body, _, m =>
    match runAll fuel tested body ((m.assign name value).withStatus 0) with
    | (.next, m) => runEach fuel tested name values body m.status m
    | (.leave levels again, m) =>
      if again && levels ≤ 1 then runEach fuel tested name values body m.status m
      else (leaveOnce levels again, m)
    | other => other

/-- Runs the first arm with a pattern that matches. -/
def runChoice : Nat → Bool → List Char → List (List Word × List Command) → Machine → Flow × Machine
  | 0, _, _, _, m => (.waiting, m)
  | _ + 1, _, _, [], m => done 0 m
  | _ + 1, _, _, ([], _) :: _, m => done 0 m
  | fuel + 1, tested, text, (pattern :: patterns, body) :: arms, m =>
    match patternOf pattern m with
    | .error message => fault 1 message m
    | .ok (glyphs, m) =>
      if matchesPattern glyphs text then runAll fuel tested body (m.withStatus 0)
      else if patterns.isEmpty then runChoice fuel tested text arms m
      else runChoice fuel tested text ((patterns, body) :: arms) m

end

/-- What a script is started with. -/
structure Invocation where
  /-- The path of the script. -/
  name : String
  content : List UInt8
  arguments : List String
  vars : List (String × String)
  files : FileSystem

/-- What has become of a script. -/
structure Progress where
  output : List UInt8
  errors : List UInt8
  /-- How it ended, if it has. -/
  ending : Option ExitStatus
  /-- It may still read its input. -/
  listens : Bool
  files : FileSystem
  writes : List FileWrite

/-- A bound for the steps of a script; one that goes on for longer never ends. -/
def stepLimit : Nat := 1000000

/-- The state in which a script starts. -/
def Invocation.machine (i : Invocation) (input : List Char) (inputEnds : Bool) : Machine :=
  { name := charsOf i.name
    arguments := i.arguments.map charsOf
    parameters := i.vars.map fun v => (charsOf v.1, charsOf v.2)
    input := input
    inputEnds := inputEnds
    streams := [(0, .input), (1, .output), (2, .errors)]
    output := []
    errors := []
    files := i.files
    writes := []
    status := 0
    strict := false }

/-- What a machine has come to. -/
def Machine.progress (flow : Flow) (m : Machine) : Progress :=
  { output := bytesOf m.output
    errors := bytesOf m.errors
    ending := match flow with
      | .ended status => some status
      | .waiting => none
      | .next | .leave .. => some (.code m.status)
    listens := m.streams.any (·.2 = .input)
    files := m.files
    writes := m.writes }

/-- Runs a script with the given input. -/
def run (i : Invocation) (input : List Char) (inputEnds : Bool) : Progress :=
  let m := i.machine input inputEnds
  match Command.readAll? (i.content.map fun b => Char.ofNat b.toNat) with
  | some commands =>
    let (flow, m) := runAll stepLimit false commands m
    m.progress flow
  | none =>
    Machine.progress (.ended (.code 2)) (m.complain 1 (charsOf "Syntax error"))

end ProximityLab.Script
