import ProximityLab.Script.Format
import ProximityLab.Script.Machine

/-!
# Built-in commands

The commands that a script has: printing, reading, tests, ending, and the care for parameters. There
are no other programs, so every other command is not found.
-/

namespace ProximityLab.Script

/-- The outcome of a command that goes on. -/
def done (status : Nat) (m : Machine) : Flow × Machine := (.next, m.withStatus status)

/-- The outcome of a command that ends the script over a fault. -/
def fault (line : Nat) (message : List Char) (m : Machine) : Flow × Machine :=
  (.ended (.code 2), (m.complain line message).withStatus 2)

/-- Prints text. -/
def emit (line : Nat) (name text : List Char) (m : Machine) : Flow × Machine :=
  match m.write 1 text with
  | (true, m) => done 0 m
  | (false, m) => done 1 (m.complain line (name ++ charsOf ": I/O error"))

/-- A number that is written with digits. -/
def decimal? (cs : List Char) : Option Nat :=
  if cs.isEmpty || !cs.all Char.isDigit then none else some (Numeral.valueOf cs)

/-- Ends the script with the status that is given, else with that of the last command. -/
def exit (line : Nat) (args : List (List Char)) (m : Machine) : Flow × Machine :=
  match args with
  | [] => (.ended (.code m.status), m)
  | a :: _ =>
    match decimal? a with
    | some n => (.ended (.code (n % 256)), m.withStatus (n % 256))
    | none => fault line (charsOf "exit: Illegal number: " ++ a) m

/-- Leaves loops or goes on with the next round. -/
def leave (again : Bool) (args : List (List Char)) (m : Machine) : Flow × Machine :=
  (.leave (((args.head?.bind decimal?).getD 1)) again, m.withStatus 0)

/-! ## Reading -/

/-- The values of the names that a line is read into: words, and for the last name all that is left
without blanks at its end. -/
def shares (separators : List Char) : Nat → List Char → List (List Char)
  | 0, _ => []
  | n + 1, cs =>
    let blank (c : Char) : Bool := separators.contains c && c.isWhitespace
    let cs := cs.dropWhile blank
    match n with
    | 0 => [(cs.reverse.dropWhile blank).reverse]
    | n + 1 =>
      let word := cs.takeWhile fun c => !separators.contains c
      let rest := (cs.drop word.length).dropWhile blank
      let rest := match rest with
        | c :: r => if (separators.contains c) && !blank c then r else rest
        | [] => []
      word :: shares separators (n + 1) rest

/-- Removes backslashes; each keeps the character behind it. -/
def dropBackslashes : List Char → List Char
  | '\\' :: c :: cs => c :: dropBackslashes cs
  | c :: cs => c :: dropBackslashes cs
  | [] => []

/-- Reads a line into parameters. -/
def read (line : Nat) (args : List (List Char)) (m : Machine) : Flow × Machine :=
  let options := args.takeWhile fun a => a.head? = some '-'
  let raw := options.any (·.contains 'r')
  let names := args.drop options.length
  if names.isEmpty then fault line (charsOf "read: arg count") m
  else
    match m.readLine with
    | (.waiting, m) => (.waiting, m)
    | (.closed, m) => done 1 (names.foldl (fun m n => m.assign n []) m)
    | (.line text ended, m) =>
      let separators := (m.variableOf "IFS".toList).getD [' ', '\t', '\n']
      let text := if raw then text else dropBackslashes text
      let values := shares separators names.length text
      let m := (names.zip values).foldl (fun m p => m.assign p.1 p.2) m
      done (if ended then 0 else 1) m

/-! ## Tests -/

/-- The content of a path, as far as a test can see it. -/
def pathTest (op : Char) (path : List Char) (m : Machine) : Bool :=
  let path := textOf path
  match op with
  | 'e' => m.files.existsAt path
  | 'f' => m.files.existsAt path && !m.files.isDirAt path
  | 'd' => m.files.isDirAt path
  | 's' => ((m.files.read path).toOption.map (!·.isEmpty)).getD (m.files.isDirAt path)
  | 'r' | 'w' | 'x' => m.files.existsAt path
  | _ => false

/-- A test of one text. -/
def unaryTest? (op arg : List Char) (m : Machine) : Option Bool :=
  match op with
  | ['-', 'n'] => some !arg.isEmpty
  | ['-', 'z'] => some arg.isEmpty
  | ['-', c] => if "efdsrwx".toList.contains c then some (pathTest c arg m) else none
  | _ => none

/-- The number of a text in a comparison. -/
def testNumber (cs : List Char) : Except (List Char) Int :=
  let trimmed := (cs.dropWhile Char.isWhitespace).reverse.dropWhile Char.isWhitespace |>.reverse
  let (negative, digits) := match trimmed with
    | '-' :: cs => (true, cs)
    | '+' :: cs => (false, cs)
    | cs => (false, cs)
  match decimal? digits with
  | some n => .ok (if negative then -n else n)
  | none => .error (charsOf "Illegal number: " ++ cs)

/-- A comparison of two texts or numbers. -/
def binaryTest? (a op b : List Char) : Option (Except (List Char) Bool) :=
  let numbers (p : Int → Int → Bool) : Option (Except (List Char) Bool) := some do
    return p (← testNumber a) (← testNumber b)
  match String.ofList op with
  | "=" => some (.ok (a = b))
  | "!=" => some (.ok (a ≠ b))
  | "-eq" => numbers (· = ·)
  | "-ne" => numbers (· ≠ ·)
  | "-lt" => numbers (· < ·)
  | "-le" => numbers (· ≤ ·)
  | "-gt" => numbers (· > ·)
  | "-ge" => numbers (· ≥ ·)
  | _ => none

/-- The value of a test. -/
def evaluateTest (m : Machine) : Nat → List (List Char) → Except (List Char) Bool
  | 0, _ => .error []
  | _ + 1, [] => .ok false
  | _ + 1, [a] => .ok !a.isEmpty
  | fuel + 1, [a, b] =>
    if a = ['!'] then (evaluateTest m fuel [b]).map not
    else
      match unaryTest? a b m with
      | some r => .ok r
      | none =>
        if (binaryTest? a b a).isSome then .error (b ++ charsOf ": argument expected")
        else .error (a ++ charsOf ": unexpected operator")
  | fuel + 1, a :: b :: c :: rest =>
    let split (op : String) : Option (List (List Char) × List (List Char)) :=
      let args := a :: b :: c :: rest
      let front := args.takeWhile (· ≠ op.toList)
      if front.length < args.length && !front.isEmpty then
        some (front, args.drop (front.length + 1))
      else none
    match if rest.isEmpty then binaryTest? a b c else none with
    | some r => r
    | none =>
      match split "-o" with
      | some (x, y) => do return (← evaluateTest m fuel x) || (← evaluateTest m fuel y)
      | none =>
        match split "-a" with
        | some (x, y) => do return (← evaluateTest m fuel x) && (← evaluateTest m fuel y)
        | none =>
          if a = ['!'] then (evaluateTest m fuel (b :: c :: rest)).map not
          else if a = ['('] && (c :: rest).getLast? = some [')'] then
            evaluateTest m fuel (b :: c :: rest).dropLast
          else .error (a ++ charsOf ": unexpected operator")

/-- A test as a command. -/
def test (line : Nat) (name : List Char) (args : List (List Char)) (m : Machine) : Flow × Machine :=
  match evaluateTest m (args.length + 1) args with
  | .ok b => done (if b then 0 else 1) m
  | .error message => done 2 (m.complain line (name ++ charsOf ": " ++ message))

/-! ## Processes and parameters -/

/-- The number of a signal. -/
def signalNumber? (cs : List Char) : Option Nat :=
  match decimal? cs with
  | some n => some n
  | none =>
    let name := if "SIG".toList.isPrefixOf cs then cs.drop 3 else cs
    (ExitStatus.signalNames.findIdx? (·.toList = name)).map (· + 1)

/-- Signals that end no process. -/
def harmlessSignals : List Nat := [0, 17, 18, 19, 20, 21, 22, 23, 28]

/-- Sends a signal; the script itself is the only process there is. -/
def kill (line : Nat) (args : List (List Char)) (m : Machine) : Flow × Machine :=
  let (signal, targets) := match args with
    | ['-', 's'] :: name :: rest => (signalNumber? name, rest)
    | ('-' :: name) :: rest => (signalNumber? name, rest)
    | rest => (some 15, rest)
  match signal, targets with
  | none, _ => fault line (charsOf "kill: Illegal option") m
  | some n, [target] =>
    if target = processNumber then
      if harmlessSignals.contains n then done 0 m else (.ended (.signal n), m)
    else done 1 (m.complain line (charsOf "kill: No such process"))
  | some _, _ => done 2 m

/-- Gives a parameter the value that is written behind its name. -/
def declare (args : List (List Char)) (m : Machine) : Machine :=
  args.foldl (fun m a =>
    let name := a.takeWhile (· ≠ '=')
    if name.length < a.length then m.assign name (a.drop (name.length + 1)) else m) m

/-- Sets options or arguments. -/
def set (args : List (List Char)) (m : Machine) : Machine :=
  match args with
  | [] => m
  | ['-', '-'] :: rest => { m with arguments := rest }
  | ('-' :: flags) :: rest =>
    let m := if flags.contains 'e' then { m with strict := true } else m
    if rest.isEmpty then m else { m with arguments := rest }
  | ('+' :: flags) :: _ => if flags.contains 'e' then { m with strict := false } else m
  | rest => { m with arguments := rest }

/-- The names of commands whose faults end a script. -/
def specialNames : List String :=
  [":", "break", "continue", "eval", "exec", "exit", "export", "readonly", "return", "set", "shift",
    "times", "trap", "unset"]

/-- Runs a command with its arguments. -/
def runBuiltin (line : Nat) (name : List Char) (args : List (List Char)) (m : Machine) :
    Flow × Machine :=
  match String.ofList name with
  | ":" | "true" | "trap" | "wait" | "umask" | "times" => done 0 m
  | "false" => done 1 m
  | "echo" => emit line name (echoText args) m
  | "printf" =>
    match args with
    | [] => done 2 (m.complain line (charsOf "printf: usage: printf format [arg ...]"))
    | format :: args =>
      let p := printed format args
      let m := p.wrong.foldl (fun m a =>
        m.complain line (charsOf "printf: " ++ a ++ charsOf ": expected numeric value")) m
      let m := p.unknown.elim m fun d =>
        m.complain line (charsOf "printf: " ++ d ++ charsOf ": invalid directive")
      let (flow, m) := emit line name p.text m
      (flow, if p.unknown.isSome then m.withStatus 2
        else if p.wrong.isEmpty then m else m.withStatus 1)
  | "exit" | "return" => exit line args m
  | "break" => leave false args m
  | "continue" => leave true args m
  | "read" => read line args m
  | "test" => test line name args m
  | "[" =>
    if args.getLast? = some [']'] then test line name args.dropLast m
    else done 2 (m.complain line (charsOf "[: missing ]"))
  | "kill" => kill line args m
  | "export" | "readonly" | "local" => done 0 (declare args m)
  | "unset" => done 0 (args.foldl (fun m a => m.unassign a) m)
  | "set" => done 0 (set args m)
  | "shift" =>
    let n := (args.head?.bind decimal?).getD 1
    if n ≤ m.arguments.length then done 0 { m with arguments := m.arguments.drop n }
    else fault line (charsOf "shift: can't shift that many") m
  | _ => done 127 (m.complain line (name ++ charsOf ": not found"))

end ProximityLab.Script
