import ProximityLab.Yaml.Cursor

/-!
# The text of YAML scalars

A scalar is written plain, between quotes or as a block of lines. White space inside plain and
quoted scalars is a `Gap`: within a line it is kept, a single line break becomes a space and further
breaks are kept. Each reader gives the text and the place behind the scalar, or `none` if the scalar
is malformed.

* `readPlain?` stops at `: `, at ` #` and, inside brackets, at the brackets' own characters.
* `readQuoted?` reads both kinds of quotes; only double quotes know escapes.
* `readBlock?` reads the indented lines below a `|` or `>`.
-/

namespace ProximityLab.Yaml

/-! ## Gaps -/

/-- White space between two parts of a scalar. -/
structure Gap where
  /-- Blanks before the first line break. -/
  blanks : List Char
  /-- The line breaks. -/
  breaks : List Char

/-- Lines were broken in the gap. -/
def Gap.isBroken (g : Gap) : Bool := !g.breaks.isEmpty

/-- What a gap contributes to the text. -/
def Gap.text (g : Gap) : List Char :=
  match g.breaks with
  | [] => g.blanks
  | ['\n'] => [' ']
  | '\n' :: more => more
  | breaks => breaks

/-- Reads the line breaks ahead and the blanks before and between them. A tab before the column
`tabFree` of a line is refused. -/
def readBreaks? (tabFree : Nat) : Nat → Cursor → Option (List Char × Cursor)
  | 0, _ => none
  | fuel + 1, c =>
    if c.atSpace then
      if c.column < tabFree && c.sees 0 '\t' then none else readBreaks? tabFree fuel (c.skip 1)
    else if c.atBreak then do
      let (b, c) := c.readBreak
      let (more, c) ← readBreaks? tabFree fuel c
      return (b ++ more, c)
    else some ([], c)

/-- Reads a gap. -/
def readGap? (tabFree : Nat) (c : Cursor) : Option (Gap × Cursor) :=
  let (blanks, c) := c.takeWhile isSpace
  if c.atBreak then
    let (b, c) := c.readBreak
    (readBreaks? tabFree (c.rest.length + 1) c).map fun (more, c) => (⟨blanks, b ++ more⟩, c)
  else some (⟨blanks, []⟩, c)

/-! ## Plain scalars -/

/-- Where a plain scalar stands: inside brackets or not, and the least column of its lines. -/
structure PlainContext where
  inFlow : Bool
  indent : Nat

/-- The brackets and the comma of a flow collection. -/
def isFlowIndicator (x : Char) : Bool := ",[]\x7b\x7d".toList.contains x

/-- A part of a plain scalar without white space; `none` if a colon inside brackets stands before
what it cannot separate. -/
def readPlainWord? (inFlow : Bool) : Nat → Cursor → Option (List Char × Cursor)
  | 0, _ => none
  | fuel + 1, c =>
    match c.rest with
    | [] => some ([], c)
    | x :: _ =>
      if c.isGapAt 0 then some ([], c)
      else if inFlow && x == ':' && (c.peek 1).any (fun y => y == '?' || isFlowIndicator y) then
        none
      else if (x == ':' && c.isGapAt 1) || (inFlow && isFlowIndicator x) then some ([], c)
      else (readPlainWord? inFlow fuel (c.skip 1)).map fun (xs, c) => (x :: xs, c)

/-- The parts of a plain scalar; the flag tells whether it ended behind a line break. -/
def readPlainParts? (ctx : PlainContext) (before : Gap) :
    Nat → Cursor → Option (List Char × Bool × Cursor)
  | 0, _ => none
  | fuel + 1, c =>
    if c.atDocumentMarker || c.sees 0 '#' then some ([], before.isBroken, c)
    else do
      let (word, next) ← readPlainWord? ctx.inFlow (c.rest.length + 1) c
      let text := if word.isEmpty then [] else before.text ++ word
      let broken := word.isEmpty && before.isBroken
      if !(next.atSpace || next.atBreak) then return (text, broken, next)
      let (gap, next) ← readGap? ctx.indent next
      if !ctx.inFlow && next.column < ctx.indent then return (text, gap.isBroken, next)
      let (more, broken, next) ← readPlainParts? ctx gap fuel next
      return (text ++ more, broken, next)

/-- Reads a plain scalar. -/
def readPlain? (ctx : PlainContext) (c : Cursor) : Option (List Char × Bool × Cursor) :=
  readPlainParts? ctx ⟨[], []⟩ (c.rest.length + 1) c

/-! ## Quoted scalars -/

/-- The value of a hexadecimal digit. -/
def hexDigit? (x : Char) : Option Nat :=
  if '0' ≤ x && x ≤ '9' then some (x.toNat - 48)
  else if 'a' ≤ x && x ≤ 'f' then some (x.toNat - 87)
  else if 'A' ≤ x && x ≤ 'F' then some (x.toNat - 55)
  else none

/-- The number that hexadecimal digits denote. -/
def hexValue? (ds : List Char) : Option Nat :=
  ds.foldlM (fun n x => (hexDigit? x).map (16 * n + ·)) 0

/-- The characters that a single letter behind a backslash stands for. -/
def shortEscape? (x : Char) : Option Char :=
  match x with
  | '0' => some (Char.ofNat 0)
  | 'a' => some (Char.ofNat 7)
  | 'b' => some (Char.ofNat 8)
  | 't' | '\t' => some '\t'
  | 'n' => some '\n'
  | 'v' => some (Char.ofNat 0x0B)
  | 'f' => some (Char.ofNat 0x0C)
  | 'r' => some '\r'
  | 'e' => some (Char.ofNat 0x1B)
  | ' ' => some ' '
  | '/' => some '/'
  | '\\' => some '\\'
  | 'N' => some (Char.ofNat 0x85)
  | '_' => some (Char.ofNat 0xA0)
  | 'L' => some (Char.ofNat 0x2028)
  | 'P' => some (Char.ofNat 0x2029)
  | _ => if x.toNat == 0x22 then some x else none

/-- The count of hexadecimal digits that a letter behind a backslash announces. -/
def escapeDigits? (x : Char) : Option Nat :=
  match x with
  | 'x' => some 2
  | 'u' => some 4
  | 'U' => some 8
  | _ => none

/-- Reads an escape whose backslash is next. -/
def readEscape? (c : Cursor) : Option (Char × Cursor) := do
  let x ← c.peek 1
  match shortEscape? x with
  | some y => return (y, c.skip 2)
  | none =>
    let width ← escapeDigits? x
    let c := c.skip 2
    let ds := c.rest.take width
    let n ← hexValue? ds
    if ds.length == width && n.isValidChar then return (Char.ofNat n, c.skip width) else none

/-- The two kinds of quotes. -/
inductive Quote where
  | single
  | double
  deriving DecidableEq

/-- The character of a quote. -/
def Quote.char : Quote → Char
  | .single => Char.ofNat 0x27
  | .double => Char.ofNat 0x22

/-- A part of a quoted scalar up to white space, the closing quote or an escaped line break. -/
def readQuotedWord? (q : Quote) : Nat → Cursor → Option (List Char × Cursor)
  | 0, _ => none
  | fuel + 1, c =>
    match c.rest with
    | [] => some ([], c)
    | x :: _ =>
      let go (y : Char) (c : Cursor) :=
        (readQuotedWord? q fuel c).map fun (ys, c) => (y :: ys, c)
      if c.isGapAt 0 then some ([], c)
      else if q = .single && x == q.char && c.sees 1 q.char then go q.char (c.skip 2)
      else if x == q.char then some ([], c)
      else if q = .double && x == '\\' then
        if (c.peek 1).any isBreak then some ([], c)
        else do
          let (y, c) ← readEscape? c
          go y c
      else go x (c.skip 1)

/-- The parts of a quoted scalar and the closing quote. -/
def readQuotedParts? (q : Quote) : Nat → Cursor → Option (List Char × Cursor)
  | 0, _ => none
  | fuel + 1, c =>
    if c.atDocumentMarker || c.atEnd then none
    else do
      let (word, c) ← readQuotedWord? q (c.rest.length + 1) c
      if c.sees 0 q.char then return (word, c.skip 1)
      let (gap, c) ←
        if c.sees 0 '\\' then do
          let c := (c.skip 1).readBreak.2
          readBreaks? 0 (c.rest.length + 1) c
        else (readGap? 0 c).map fun (gap, c) => (gap.text, c)
      let (more, c) ← readQuotedParts? q fuel c
      return (word ++ gap ++ more, c)

/-- Reads a scalar whose opening quote is next. -/
def readQuoted? (q : Quote) (c : Cursor) : Option (List Char × Cursor) :=
  let c := c.skip 1
  readQuotedParts? q (c.rest.length + 1) c

/-! ## Block scalars -/

/-- What happens to the line breaks at the end of a block. -/
inductive Chomping where
  | strip
  | clip
  | keep
  deriving DecidableEq

/-- The header of a block scalar. -/
structure BlockHeader where
  chomping : Chomping
  /-- The indentation relative to the enclosing block, if it is given. -/
  increment : Option Nat

/-- Reads a chomping indicator. -/
def readChomping? (c : Cursor) : Option (Chomping × Cursor) :=
  if c.sees 0 '+' then some (.keep, c.skip 1)
  else if c.sees 0 '-' then some (.strip, c.skip 1)
  else none

/-- Reads an indentation indicator, a digit that is not zero; `none` for zero. -/
def readIncrement? (c : Cursor) : Option (Option Nat × Cursor) :=
  match c.peek 0 with
  | some x =>
    if x == '0' then none
    else if '1' ≤ x && x ≤ '9' then some (some (x.toNat - 48), c.skip 1)
    else some (none, c)
  | none => some (none, c)

/-- Reads the header line of a block scalar. -/
def readBlockHeader? (c : Cursor) : Option (BlockHeader × Cursor) := do
  let (header, c) ← match readChomping? c with
    | some (chomping, c) =>
      (readIncrement? c).map fun (increment, c) => (BlockHeader.mk chomping increment, c)
    | none => do
      let (increment, c) ← readIncrement? c
      let (chomping, c) := match increment with
        | some _ => (readChomping? c).getD (.clip, c)
        | none => (.clip, c)
      some (BlockHeader.mk chomping increment, c)
  let c := c.skipWhile isSpace
  let c := if c.sees 0 '#' then c.skipLineRest else c
  if c.atEnd || c.atBreak then return (header, c.readBreak.2) else none

/-- Reads the empty lines before the next line of a block. The indentation is found on the way if
it is not known: it is that of the most indented line so far. -/
def readEmptyLines? (indent : Option Nat) (most : Nat) :
    Nat → Cursor → Option (List Char × Nat × Cursor)
  | 0, _ => none
  | fuel + 1, c =>
    let width := (c.rest.takeWhile (· == ' ')).length
    let c := c.skip (match indent with | some i => min width (i - c.column) | none => width)
    let most := max most c.column
    if indent.all (c.column < ·) && c.sees 0 '\t' then none
    else if c.atBreak then do
      let (b, c) := c.readBreak
      let (more, most, c) ← readEmptyLines? indent most fuel c
      return (b ++ more, most, c)
    else some ([], most, c)

/-- The lines of a block. `pending` is the break behind the line before, `open` holds the empty
lines since then, `spaced` tells whether that line began with a blank. -/
def readBlockLines? (folded : Bool) (chomping : Chomping) (indent : Nat)
    (pending empties : List Char) (spaced : Bool) : Nat → Cursor → Option (List Char × Cursor)
  | 0, _ => none
  | fuel + 1, c =>
    if c.column == indent && !c.atEnd then do
      let spacedNow := c.atSpace
      let gap :=
        if folded && pending == ['\n'] && !spaced && !spacedNow then
          if empties.isEmpty then [' '] else []
        else pending
      let (line, c) := c.takeWhile fun x => !isBreak x
      let (b, c) := c.readBreak
      let (more, _, c) ← readEmptyLines? (some indent) 0 (c.rest.length + 1) c
      let (text, c) ← readBlockLines? folded chomping indent b more spacedNow fuel c
      return (gap ++ empties ++ line ++ text, c)
    else
      let ending := if chomping = .strip then [] else pending
      some (ending ++ (if chomping = .keep then empties else []),
        c)

/-- Reads a block scalar whose indicator is next, inside a block at column `parent` (−1 outside of
all blocks). -/
def readBlock? (folded : Bool) (parent : Int) (c : Cursor) : Option (List Char × Cursor) := do
  let (header, c) ← readBlockHeader? (c.skip 1)
  let given := header.increment.map fun n => (max parent 0).toNat + n
  let (empties, most, c) ← readEmptyLines? given 0 (c.rest.length + 1) c
  let indent := given.getD (max (max most (parent + 1).toNat) 1)
  readBlockLines? folded header.chomping indent [] empties false (c.rest.length + 1) c

end ProximityLab.Yaml
