import ProximityLab.Number.Numeral
import ProximityLab.Script.Command

/-!
# Reading scripts

`Command.readAll?` reads a script: a list of commands, each on a line of its own or followed by a
semicolon. The readers take characters from the front of what is left; `fuel` bounds their nesting
and is taken from the length of the script.
-/

namespace ProximityLab.Script

def quoteMark : Char := Char.ofNat 0x22
def apostrophe : Char := Char.ofNat 0x27
def backquote : Char := Char.ofNat 0x60
def braceOpen : Char := Char.ofNat 0x7B
def braceClose : Char := Char.ofNat 0x7D

/-- The character separates words on a line. -/
def isBlank (c : Char) : Bool := c = ' ' || c = '\t'

/-- The character ends an unquoted word. -/
def endsWord (c : Char) : Bool := isBlank c || "\n;&|<>()".toList.contains c

def isNameStart (c : Char) : Bool := c.isAlpha || c = '_'
def isNameChar (c : Char) : Bool := c.isAlphanum || c = '_'

/-- The name at the front. -/
def takeName (cs : List Char) : List Char :=
  match cs with
  | c :: _ => if isNameStart c then cs.takeWhile isNameChar else []
  | [] => []

/-- Parameters that are named by one character which is no letter. -/
def isSpecial (c : Char) : Bool := "*@#?$!-".toList.contains c || c.isDigit

/-- Drops blanks and continued line ends. -/
def skipBlanks : List Char → List Char
  | ' ' :: cs => skipBlanks cs
  | '\t' :: cs => skipBlanks cs
  | '\\' :: '\n' :: cs => skipBlanks cs
  | cs => cs

/-- Drops a comment. -/
def skipComment (cs : List Char) : List Char :=
  match cs with
  | '#' :: _ => cs.dropWhile (· ≠ '\n')
  | _ => cs

/-- Drops blanks, comments, line ends and, if `loose` holds, semicolons. -/
def skipSpace (loose : Bool) : Nat → List Char → List Char
  | 0, cs => cs
  | fuel + 1, cs =>
    match skipComment (skipBlanks cs) with
    | '\n' :: rest => skipSpace loose fuel rest
    | ';' :: rest =>
      if loose && rest.head? ≠ some ';' then skipSpace loose fuel rest else ';' :: rest
    | rest => rest

/-! ## Words -/

/-- The parts of a word count as quoted. -/
def quoteParts (parts : List Part) : List Part :=
  parts.map fun p =>
    match p with
    | .literal _ text => .literal true text
    | .parameter _ name used => .parameter true name used
    | .sum _ expression => .sum true expression

/-- Puts a character in front of parts. -/
def pushChar (quoted : Bool) (c : Char) : List Part → List Part
  | .literal q text :: parts =>
    if q = quoted then .literal q (c :: text) :: parts
    else .literal quoted [c] :: .literal q text :: parts
  | parts => .literal quoted [c] :: parts

/-- The name of a parameter in braces. -/
def takeParameter (cs : List Char) : List Char :=
  match takeName cs with
  | [] =>
    match cs with
    | c :: _ => if c.isDigit then cs.takeWhile Char.isDigit else if isSpecial c then [c] else []
    | [] => []
  | name => name

mutual

/-- Reads the parts of an unquoted text up to a character that ends it. -/
def readParts? : Nat → (Char → Bool) → List Char → Option (List Part × List Char)
  | 0, _, _ => none
  | _ + 1, _, [] => some ([], [])
  | fuel + 1, stop, c :: cs =>
    if stop c then some ([], c :: cs)
    else if c = apostrophe then
      let text := cs.takeWhile (· ≠ apostrophe)
      match cs.drop text.length with
      | _ :: cs => do
        let (parts, cs) ← readParts? fuel stop cs
        return (.literal true text :: parts, cs)
      | [] => none
    else if c = quoteMark then do
      let (inner, cs) ← readQuoted? fuel cs
      let (parts, cs) ← readParts? fuel stop cs
      return (.literal true [] :: inner ++ parts, cs)
    else if c = '$' then do
      let (part, cs) ← readDollar? fuel false cs
      let (parts, cs) ← readParts? fuel stop cs
      return (part :: parts, cs)
    else if c = backquote then none
    else if c = '\\' then
      match cs with
      | '\n' :: cs => readParts? fuel stop cs
      | d :: cs => do
        let (parts, cs) ← readParts? fuel stop cs
        return (.literal true [d] :: parts, cs)
      | [] => some ([.literal true ['\\']], [])
    else do
      let (parts, cs) ← readParts? fuel stop cs
      return (pushChar false c parts, cs)

/-- Reads parts up to the closing quotation mark. -/
def readQuoted? : Nat → List Char → Option (List Part × List Char)
  | 0, _ => none
  | _ + 1, [] => none
  | fuel + 1, c :: cs =>
    if c = quoteMark then some ([], cs)
    else if c = backquote then none
    else if c = '$' then do
      let (part, cs) ← readDollar? fuel true cs
      let (parts, cs) ← readQuoted? fuel cs
      return (part :: parts, cs)
    else if c = '\\' then
      match cs with
      | [] => none
      | d :: cs => do
        let (parts, cs) ← readQuoted? fuel cs
        if d = '\n' then return (parts, cs)
        else if d = '$' || d = backquote || d = quoteMark || d = '\\' then
          return (pushChar true d parts, cs)
        else return (pushChar true '\\' (pushChar true d parts), cs)
    else do
      let (parts, cs) ← readQuoted? fuel cs
      return (pushChar true c parts, cs)

/-- Reads what follows a dollar sign. -/
def readDollar? : Nat → Bool → List Char → Option (Part × List Char)
  | 0, _, _ => none
  | _ + 1, quoted, [] => some (.literal quoted ['$'], [])
  | fuel + 1, quoted, c :: cs =>
    if c = '(' then
      match cs with
      | '(' :: cs => do
        let (parts, cs) ← readSum? fuel 0 cs
        return (.sum quoted parts, cs)
      | _ => none
    else if c = braceOpen then readBraced? fuel quoted cs
    else
      match takeName (c :: cs) with
      | [] =>
        if isSpecial c then some (.parameter quoted [c] .value, cs)
        else some (.literal quoted ['$'], c :: cs)
      | name => some (.parameter quoted name .value, (c :: cs).drop name.length)

/-- Reads an arithmetic expression up to its closing parentheses. -/
def readSum? : Nat → Nat → List Char → Option (List Part × List Char)
  | 0, _, _ => none
  | _ + 1, _, [] => none
  | fuel + 1, depth, c :: cs =>
    if c = ')' then
      match depth, cs with
      | 0, ')' :: cs => some ([], cs)
      | 0, _ => none
      | depth + 1, cs => do
        let (parts, cs) ← readSum? fuel depth cs
        return (pushChar false c parts, cs)
    else if c = '$' then do
      let (part, cs) ← readDollar? fuel false cs
      let (parts, cs) ← readSum? fuel depth cs
      return (part :: parts, cs)
    else do
      let (parts, cs) ← readSum? fuel (if c = '(' then depth + 1 else depth) cs
      return (pushChar false c parts, cs)

/-- Reads a parameter in braces. -/
def readBraced? : Nat → Bool → List Char → Option (Part × List Char)
  | 0, _, _ => none
  | fuel + 1, quoted, cs =>
    match cs with
    | '#' :: c :: rest =>
      if c ≠ braceClose && !(takeParameter (c :: rest)).isEmpty then
        let name := takeParameter (c :: rest)
        match (c :: rest).drop name.length with
        | d :: rest => if d = braceClose then some (.parameter quoted name .length, rest) else none
        | [] => none
      else readUse? fuel quoted ['#'] (c :: rest)
    | _ =>
      match takeParameter cs with
      | [] => none
      | name => readUse? fuel quoted name (cs.drop name.length)

/-- Reads what is done with a parameter in braces. -/
def readUse? : Nat → Bool → List Char → List Char → Option (Part × List Char)
  | 0, _, _, _ => none
  | _ + 1, _, _, [] => none
  | fuel + 1, quoted, name, c :: cs =>
    let withWord (cs : List Char) (used : List Part → ParameterUse Part) :
        Option (Part × List Char) := do
      let (parts, cs) ← readParts? fuel (· = braceClose) cs
      match cs with
      | _ :: cs =>
        return (.parameter quoted name (used (if quoted then quoteParts parts else parts)), cs)
      | [] => none
    if c = braceClose then some (.parameter quoted name .value, cs)
    else
      match c, cs with
      | ':', '-' :: cs => withWord cs (.fallback true false)
      | ':', '=' :: cs => withWord cs (.fallback true true)
      | ':', '+' :: cs => withWord cs (.replacement true)
      | '-', cs => withWord cs (.fallback false false)
      | '=', cs => withWord cs (.fallback false true)
      | '+', cs => withWord cs (.replacement false)
      | ':', '?' :: cs => withWord cs (.demanded true)
      | '?', cs => withWord cs (.demanded false)
      | '#', '#' :: cs => withWord cs (.trimmed false true)
      | '#', cs => withWord cs (.trimmed false false)
      | '%', '%' :: cs => withWord cs (.trimmed true true)
      | '%', cs => withWord cs (.trimmed true false)
      | _, _ => none

end

/-- Reads a word; there is at least one character of it. -/
def readWord? (fuel : Nat) (cs : List Char) : Option (Word × List Char) :=
  match cs with
  | [] => none
  | c :: _ => if endsWord c then none else readParts? fuel endsWord cs

/-- Reads a redirection, if there is one. -/
def readRedirection? (fuel : Nat) (cs : List Char) : Option (Redirection × List Char) :=
  let digits := cs.takeWhile Char.isDigit
  let stream (default : Nat) : Nat := if digits.isEmpty then default else Numeral.valueOf digits
  let target (cs : List Char) (n : Nat) (how : Word → Redirect) :
      Option (Redirection × List Char) := do
    let (word, cs) ← readWord? fuel (skipBlanks cs)
    return (⟨stream n, how word⟩, cs)
  match cs.drop digits.length with
  | '>' :: '>' :: cs => target cs 1 .append
  | '>' :: '&' :: cs => target cs 1 .duplicate
  | '>' :: '|' :: cs => target cs 1 .write
  | '>' :: cs => target cs 1 .write
  | '<' :: '&' :: cs => target cs 0 .duplicate
  | '<' :: '<' :: _ => none
  | '<' :: cs => target cs 0 .read
  | _ => none

/-- A redirection is at the front. -/
def startsRedirection (cs : List Char) : Bool :=
  match cs.dropWhile Char.isDigit with
  | c :: _ => c = '<' || c = '>'
  | [] => false

/-- Reads the redirections behind a command. -/
def readRedirections? : Nat → List Char → Option (List Redirection × List Char)
  | 0, _ => none
  | fuel + 1, cs =>
    let cs := skipBlanks cs
    if startsRedirection cs then do
      let (r, cs) ← readRedirection? fuel cs
      let (rs, cs) ← readRedirections? fuel cs
      return (r :: rs, cs)
    else some ([], cs)

/-! ## Commands -/

/-- The unquoted text at the front, as far as it can be a reserved word. -/
def plainWord (cs : List Char) : String :=
  let word := cs.takeWhile fun c => c.isLower || c = '!' || c = braceOpen || c = braceClose
  match cs.drop word.length with
  | [] => String.ofList word
  | c :: _ => if endsWord c then String.ofList word else ""

/-- Drops a reserved word. -/
def expectWord? (word : String) (cs : List Char) : Option (List Char) :=
  if plainWord cs = word then some (cs.drop word.length) else none

/-- Reads a simple command. -/
def readSimple? (line : Nat) : Nat → List (List Char × Word) → List Word → List Redirection →
    List Char → Option (Command × List Char)
  | 0, _, _, _, _ => none
  | fuel + 1, assignments, words, redirections, cs =>
    let cs := skipComment (skipBlanks cs)
    if startsRedirection cs then do
      let (r, cs) ← readRedirection? fuel cs
      readSimple? line fuel assignments words (redirections ++ [r]) cs
    else
      match cs with
      | [] => some (.simple line assignments words redirections, [])
      | c :: _ =>
        if endsWord c then some (.simple line assignments words redirections, cs)
        else
          let name := takeName cs
          match cs.drop name.length with
          | '=' :: rest =>
            if words.isEmpty && !name.isEmpty then do
              let (value, cs) ← readParts? fuel endsWord rest
              readSimple? line fuel (assignments ++ [(name, value)]) words redirections cs
            else do
              let (word, cs) ← readWord? fuel cs
              readSimple? line fuel assignments (words ++ [word]) redirections cs
          | _ => do
            let (word, cs) ← readWord? fuel cs
            readSimple? line fuel assignments (words ++ [word]) redirections cs

/-- Reads words up to the end of the line or a semicolon. -/
def readWords? : Nat → List Char → Option (List Word × List Char)
  | 0, _ => none
  | fuel + 1, cs =>
    match skipBlanks cs with
    | [] => some ([], [])
    | c :: rest =>
      if endsWord c then some ([], c :: rest)
      else do
        let (word, cs) ← readWord? fuel (c :: rest)
        let (words, cs) ← readWords? fuel cs
        return (word :: words, cs)

/-- Reads the patterns of an arm up to the closing parenthesis. -/
def readPatterns? : Nat → List Char → Option (List Word × List Char)
  | 0, _ => none
  | fuel + 1, cs => do
    let (word, cs) ← readWord? fuel (skipBlanks cs)
    match skipBlanks cs with
    | ')' :: cs => return ([word], cs)
    | '|' :: cs =>
      let (words, cs) ← readPatterns? fuel cs
      return (word :: words, cs)
    | _ => none

/-- The number of the line at which the rest of a script with that many line ends begins. -/
def lineOf (total : Nat) (cs : List Char) : Nat := total - cs.count '\n' + 1

/-- The reserved words that end a list of commands. -/
def closers : List String :=
  ["do", "done", "then", "elif", "else", "fi", "esac", String.singleton braceClose]

mutual

/-- Reads commands up to a closing word, the end of an arm or the end of the script. -/
def readList? (total : Nat) : Nat → List Char → Option (List Command × List Char)
  | 0, _ => none
  | fuel + 1, cs =>
    let cs := skipSpace true (cs.length + 1) cs
    match cs with
    | [] => some ([], [])
    | c :: _ =>
      if closers.contains (plainWord cs) || c = ';' || c = ')' then some ([], cs)
      else do
        let (command, cs) ← readChain? total fuel cs
        let cs := skipComment (skipBlanks cs)
        match cs with
        | [] => return ([command], [])
        | c :: _ =>
          if c = '\n' || c = ';' || c = ')' || closers.contains (plainWord cs) then
            let (commands, cs) ← readList? total fuel cs
            return (command :: commands, cs)
          else none

/-- Reads commands that are joined by their success. -/
def readChain? (total : Nat) : Nat → List Char → Option (Command × List Char)
  | 0, _ => none
  | fuel + 1, cs => do
    let (command, cs) ← readCommand? total fuel cs
    readLinks? total fuel command cs

/-- Reads what is joined to a command. -/
def readLinks? (total : Nat) : Nat → Command → List Char → Option (Command × List Char)
  | 0, _, _ => none
  | fuel + 1, command, cs =>
    match skipBlanks cs with
    | '&' :: '&' :: cs => do
      let (next, cs) ← readCommand? total fuel (skipSpace false (cs.length + 1) cs)
      readLinks? total fuel (.both command next) cs
    | '|' :: '|' :: cs => do
      let (next, cs) ← readCommand? total fuel (skipSpace false (cs.length + 1) cs)
      readLinks? total fuel (.either command next) cs
    | cs => some (command, cs)

/-- Reads one command. -/
def readCommand? (total : Nat) : Nat → List Char → Option (Command × List Char)
  | 0, _ => none
  | fuel + 1, cs =>
    let cs := skipBlanks cs
    let word := plainWord cs
    let rest := cs.drop word.length
    let closed (c : Command) (cs : List Char) : Option (Command × List Char) := do
      let (redirections, cs) ← readRedirections? fuel cs
      return (if redirections.isEmpty then c else .redirected c redirections, cs)
    if word = "!" then do
      let (c, cs) ← readCommand? total fuel rest
      return (.negation c, cs)
    else if word = "while" || word = "until" then do
      let (condition, cs) ← readList? total fuel rest
      let (body, cs) ← readBody? total fuel cs
      closed (.loop (word = "until") condition body) cs
    else if word = "for" then do
      let cs := skipBlanks rest
      let name := takeName cs
      let cs := skipSpace false (cs.length + 1) (cs.drop name.length)
      if name.isEmpty then none
      else if plainWord cs = "in" then
        let (items, cs) ← readWords? fuel (cs.drop 2)
        let (body, cs) ← readBody? total fuel cs
        closed (.each name (some items) body) cs
      else
        let (body, cs) ← readBody? total fuel cs
        closed (.each name none body) cs
    else if word = "if" then do
      let (c, cs) ← readBranches? total fuel rest
      closed c cs
    else if word = "case" then do
      let (subject, cs) ← readWord? fuel (skipBlanks rest)
      let cs ← expectWord? "in" (skipSpace false (cs.length + 1) cs)
      let (arms, cs) ← readArms? total fuel cs
      closed (.choice subject arms) cs
    else if word = String.singleton braceOpen then do
      let (body, cs) ← readList? total fuel rest
      let cs ← expectWord? (String.singleton braceClose) cs
      closed (.group body) cs
    else if word ≠ "" && closers.contains word then none
    else
      match cs with
      | [] => none
      | c :: _ =>
        if endsWord c && !startsRedirection cs then none
        else readSimple? (lineOf total cs) fuel [] [] [] cs

/-- Reads the body of a loop. -/
def readBody? (total : Nat) : Nat → List Char → Option (List Command × List Char)
  | 0, _ => none
  | fuel + 1, cs => do
    let cs ← expectWord? "do" (skipSpace true (cs.length + 1) cs)
    let (body, cs) ← readList? total fuel cs
    let cs ← expectWord? "done" cs
    return (body, cs)

/-- Reads a condition and what depends on it. -/
def readBranches? (total : Nat) : Nat → List Char → Option (Command × List Char)
  | 0, _ => none
  | fuel + 1, cs => do
    let (condition, cs) ← readList? total fuel cs
    let cs ← expectWord? "then" cs
    let (body, cs) ← readList? total fuel cs
    match plainWord cs with
    | "fi" => return (.branch [(condition, body)] [], cs.drop 2)
    | "else" =>
      let (otherwise, cs) ← readList? total fuel (cs.drop 4)
      let cs ← expectWord? "fi" cs
      return (.branch [(condition, body)] otherwise, cs)
    | "elif" =>
      let (next, cs) ← readBranches? total fuel (cs.drop 4)
      return (.branch [(condition, body)] [next], cs)
    | _ => none

/-- Reads the arms of a choice. -/
def readArms? (total : Nat) : Nat → List Char → Option (List (List Word × List Command) × List Char)
  | 0, _ => none
  | fuel + 1, cs =>
    let cs := skipSpace false (cs.length + 1) cs
    if plainWord cs = "esac" then some ([], cs.drop 4)
    else do
      let cs := match cs with
        | '(' :: rest => rest
        | _ => cs
      let (patterns, cs) ← readPatterns? fuel cs
      let (body, cs) ← readList? total fuel cs
      match cs with
      | ';' :: ';' :: cs =>
        let (arms, cs) ← readArms? total fuel cs
        return ((patterns, body) :: arms, cs)
      | _ =>
        let cs ← expectWord? "esac" cs
        return ([(patterns, body)], cs)

end

/-- Reads a script. -/
def Command.readAll? (script : List Char) : Option (List Command) :=
  match readList? (script.count '\n') (4 * script.length + 16) script with
  | some (commands, []) => some commands
  | _ => none

end ProximityLab.Script
