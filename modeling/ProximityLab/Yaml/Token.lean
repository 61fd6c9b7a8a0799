import ProximityLab.Text.Utf8
import ProximityLab.Yaml.ScalarText

/-!
# YAML tokens

`Token.scan?` cuts a YAML text into tokens. Indentation becomes explicit: a block collection opens
with a start token when its first line is indented further than its parent, and closes with
`blockEnd` when a line is indented less. A mapping key is often recognised late, at the `:` behind
it; the place where it began is kept as a `KeyCandidate`, and `key` is inserted there when the colon
comes.
-/

namespace ProximityLab.Yaml

/-- A lexical unit. -/
inductive Token where
  /-- A version directive. -/
  | version (major minor : Nat)
  /-- A directive that gives a tag handle its meaning. -/
  | tagHandle (handle meaning : String)
  | documentStart
  | documentEnd
  | blockSequence
  | blockMapping
  | blockEnd
  | flowSequence
  | flowSequenceEnd
  | flowMapping
  | flowMappingEnd
  | blockEntry
  | flowEntry
  | key
  | value
  | alias (name : String)
  | anchor (name : String)
  | tag (handle rest : String)
  | scalar (plain : Bool) (text : String)
  deriving DecidableEq, Inhabited

/-! ## Names, tags and directives -/

/-- Reads the name of an anchor or alias, whose mark is next. -/
def readAnchorName? (c : Cursor) : Option (String × Cursor) :=
  let (name, c) := (c.skip 1).takeWhile isWordChar
  let closed := c.isGapAt 0 ||
    (c.peek 0).any (fun x => "?:,]\x7d%@".toList.contains x || x.toNat == 0x60)
  if name.isEmpty || !closed then none else some (String.ofList name, c)

/-- A character of a tag's text, the percent sign apart. -/
def isTagChar (verbatim : Bool) (x : Char) : Bool :=
  isWordChar x || ";/?:@&=+$.!~*()".toList.contains x || x.toNat == 0x27 ||
    (verbatim && ",[]".toList.contains x)

/-- Reads the text of a tag as bytes; a percent sign and two hexadecimal digits give one byte. -/
def readTagBytes? (verbatim : Bool) : Nat → Cursor → Option (List UInt8 × Cursor)
  | 0, _ => none
  | fuel + 1, c =>
    match c.rest with
    | '%' :: a :: b :: _ => do
      let n ← hexValue? [a, b]
      let (more, c) ← readTagBytes? verbatim fuel (c.skip 3)
      return (UInt8.ofNat n :: more, c)
    | '%' :: _ => none
    | x :: _ =>
      if isTagChar verbatim x then do
        let (more, c) ← readTagBytes? verbatim fuel (c.skip 1)
        return (Text.encodeChar x ++ more, c)
      else some ([], c)
    | [] => some ([], c)

/-- Reads the text of a tag; escaped bytes have to form characters. -/
def readTagText? (verbatim : Bool) (c : Cursor) : Option (String × Cursor) := do
  let (bytes, c) ← readTagBytes? verbatim (c.rest.length + 1) c
  return (← Text.decode? bytes, c)

/-- Reads a tag handle: an exclamation mark, a name and perhaps another exclamation mark. -/
def readTagHandle? (c : Cursor) : Option (List Char × Cursor) :=
  if c.sees 0 '!' then
    let (name, c) := (c.skip 1).takeWhile isWordChar
    if c.sees 0 '!' then some ('!' :: name ++ ['!'], c.skip 1) else some ('!' :: name, c)
  else none

/-- Whether a handle is closed by a second exclamation mark. -/
def isClosedHandle (handle : List Char) : Bool := 1 < handle.length && handle.getLast? == some '!'

/-- Reads a tag, whose exclamation mark is next. -/
def readTag? (inFlow : Bool) (c : Cursor) : Option (Token × Cursor) := do
  let (token, c) ←
    if c.sees 1 '<' then do
      let (text, c) ← readTagText? true (c.skip 2)
      if text.isEmpty || !c.sees 0 '>' then none
      else some (Token.tag "" text, c.skip 1)
    else do
      let (handle, c) ← readTagHandle? c
      let (text, c) ← readTagText? false c
      if isClosedHandle handle then
        if text.isEmpty then none else some (Token.tag (String.ofList handle) text, c)
      else
        let text := String.ofList (handle.drop 1) ++ text
        some (if text.isEmpty then Token.tag "" "!" else Token.tag "!" text, c)
  if c.isGapAt 0 || (inFlow && c.sees 0 ',') then return (token, c) else none

/-- Reads a number of a version directive. -/
def readVersionNumber? (c : Cursor) : Option (Nat × Cursor) :=
  let (ds, c) := c.takeWhile Char.isDigit
  if ds.isEmpty || 9 < ds.length then none
  else some (ds.foldl (fun n x => 10 * n + (x.toNat - 48)) 0, c)

/-- Reads the version behind its directive's name. -/
def readVersion? (c : Cursor) : Option (Token × Cursor) := do
  let (major, c) ← readVersionNumber? (c.skipWhile isSpace)
  if !c.sees 0 '.' then none
  let (minor, c) ← readVersionNumber? (c.skip 1)
  return (.version major minor, c)

/-- Reads the handle and its meaning behind their directive's name. -/
def readHandleMeaning? (c : Cursor) : Option (Token × Cursor) := do
  let (handle, c) ← readTagHandle? (c.skipWhile isSpace)
  if !(isClosedHandle handle || handle.length == 1) || !c.atSpace then none
  let (meaning, c) ← readTagText? true (c.skipWhile isSpace)
  if meaning.isEmpty || !c.isGapAt 0 then none
  return (.tagHandle (String.ofList handle) meaning, c)

/-- Reads a directive, whose percent sign is next, and the rest of its line. -/
def readDirective? (c : Cursor) : Option (Token × Cursor) := do
  let (name, c) := (c.skip 1).takeWhile isWordChar
  if !c.isGapAt 0 then none
  let (token, c) ← match String.ofList name with
    | "YAML" => readVersion? c
    | "TAG" => readHandleMeaning? c
    | _ => none
  let c := c.skipWhile isSpace
  let c := if c.sees 0 '#' then c.skipLineRest else c
  if c.atEnd || c.atBreak then return (token, c.readBreak.2) else none

/-! ## The scanner -/

/-- A place where a mapping key may have begun. -/
structure KeyCandidate where
  /-- Count of tokens before it. -/
  number : Nat
  /-- The line cannot be anything but a key. -/
  required : Bool
  index : Nat
  line : Nat
  column : Nat

/-- A text that is cut into tokens. -/
structure Scanner where
  cursor : Cursor
  /-- The tokens so far, the last one in front. -/
  found : List Token
  count : Nat
  /-- The column of the innermost block collection, −1 outside of all. -/
  indent : Int
  /-- The columns of the enclosing block collections. -/
  outer : List Int
  /-- A mapping key may begin here. -/
  keyAllowed : Bool
  /-- The candidate of the innermost flow collection, or of the block. -/
  candidate : Option KeyCandidate
  /-- The candidates outside of each open flow collection. -/
  enclosing : List (Option KeyCandidate)

namespace Scanner

/-- Before the first character. -/
def start (cs : List Char) : Scanner :=
  { cursor := .start cs, found := [], count := 0, indent := -1, outer := [], keyAllowed := true,
    candidate := none, enclosing := [] }

/-- Inside a flow collection. -/
def inFlow (s : Scanner) : Bool := !s.enclosing.isEmpty

/-- Adds a token. -/
def push (s : Scanner) (t : Token) : Scanner :=
  { s with found := t :: s.found, count := s.count + 1 }

/-- Adds a token behind the first `number` ones. -/
def insert (s : Scanner) (number : Nat) (t : Token) : Scanner :=
  let later := s.count - number
  { s with found := s.found.take later ++ t :: s.found.drop later, count := s.count + 1 }

/-- Passes `n` characters that are a token. -/
def pushMark (s : Scanner) (n : Nat) (t : Token) : Scanner :=
  { s.push t with cursor := s.cursor.skip n }

/-- Adds a token that was read up to a place. -/
def pushRead (s : Scanner) (r : Token × Cursor) : Scanner := { s.push r.1 with cursor := r.2 }

/-- Opens a block collection at a column that is further right than its parent's. -/
def openBlock (s : Scanner) (column : Nat) (number : Nat) (t : Token) : Scanner :=
  if !s.inFlow && s.indent < column then
    { s.insert number t with outer := s.indent :: s.outer, indent := column }
  else s

/-- Closes the block collections that are further right than a column. -/
def closeBlocks (s : Scanner) (column : Int) : Scanner :=
  if s.inFlow then s
  else
    let closing := (s.indent :: s.outer).takeWhile (column < ·)
    match (s.indent :: s.outer).drop closing.length with
    | indent :: outer =>
      { s with
        found := List.replicate closing.length .blockEnd ++ s.found
        count := s.count + closing.length
        indent := indent
        outer := outer }
    | [] => s

/-- Gives up the candidate; `none` if it had to be a key. -/
def dropCandidate? (s : Scanner) : Option Scanner :=
  if s.candidate.any (·.required) then none else some { s with candidate := none }

/-- A candidate is given up when its line is over, or after 1024 characters. -/
def isStale (c : Cursor) (k : KeyCandidate) : Bool := k.line < c.line || k.index + 1024 < c.index

/-- Gives up the candidates that are too far behind; `none` if one of them had to be a key. -/
def dropStale? (s : Scanner) : Option Scanner :=
  let all := s.candidate :: s.enclosing
  if all.any (·.any fun k => k.required && isStale s.cursor k) then none
  else
    let keep (k : Option KeyCandidate) := k.filter fun k => !isStale s.cursor k
    some { s with candidate := keep s.candidate, enclosing := s.enclosing.map keep }

/-- Makes the next token a candidate, if a key may begin here. -/
def mark? (s : Scanner) : Option Scanner :=
  if s.keyAllowed then do
    let s ← s.dropCandidate?
    let c := s.cursor
    let required := !s.inFlow && s.indent == c.column
    return { s with candidate := some ⟨s.count, required, c.index, c.line, c.column⟩ }
  else some s

/-- Passes blanks, comments and line breaks up to the next token. -/
def skipToToken : Nat → Scanner → Scanner
  | 0, s => s
  | fuel + 1, s =>
    let tabs := s.inFlow || !s.keyAllowed
    let c := s.cursor.skipWhile fun x => x == ' ' || (tabs && x == '\t')
    let c := if c.sees 0 '#' then c.skipLineRest else c
    if c.atBreak then
      skipToToken fuel { s with cursor := c.readBreak.2, keyAllowed := s.keyAllowed || !s.inFlow }
    else { s with cursor := c }

/-- The marker of a document, a directive or the end of the stream: all blocks are over. -/
def leaveBlocks? (s : Scanner) : Option Scanner :=
  (s.closeBlocks (-1)).dropCandidate?.map fun s => { s with keyAllowed := false }

/-- The start of a flow collection. -/
def openFlow? (s : Scanner) (t : Token) : Option Scanner := do
  let s ← s.mark?
  let s := { s with enclosing := s.candidate :: s.enclosing, candidate := none, keyAllowed := true }
  return s.pushMark 1 t

/-- The end of a flow collection. -/
def closeFlow? (s : Scanner) (t : Token) : Option Scanner := do
  let s ← s.dropCandidate?
  let s := match s.enclosing with
    | k :: ks => { s with candidate := k, enclosing := ks }
    | [] => s
  return { s with keyAllowed := false }.pushMark 1 t

/-- An indicator in front of a block entry or a key: it may open a collection of its own. -/
def openEntry? (s : Scanner) (block mark : Token) (keyBehind : Bool) : Option Scanner := do
  if !s.inFlow && !s.keyAllowed then none
  let s := s.openBlock s.cursor.column s.count block
  let s ← s.dropCandidate?
  return { s with keyAllowed := keyBehind }.pushMark 1 mark

/-- The colon behind a key, or in front of a value without one. -/
def readColon? (s : Scanner) : Option Scanner :=
  match s.candidate with
  | some k =>
    let s := s.insert k.number .key
    let s := s.openBlock k.column k.number .blockMapping
    some ({ s with candidate := none, keyAllowed := false }.pushMark 1 .value)
  | none =>
    if !s.inFlow && !s.keyAllowed then none
    else
      let s := s.openBlock s.cursor.column s.count .blockMapping
      some ({ s with keyAllowed := !s.inFlow }.pushMark 1 .value)

/-- A token that may be a key and has no key inside. -/
def readAtom? (s : Scanner) (read : Cursor → Option (Token × Cursor)) : Option Scanner := do
  let s ← s.mark?
  return { s with keyAllowed := false }.pushRead (← read s.cursor)

/-- A quoted scalar. -/
def readQuotedToken? (s : Scanner) (q : Quote) : Option Scanner :=
  s.readAtom? fun c =>
    (readQuoted? q c).map fun (text, c) => (.scalar false (String.ofList text), c)

/-- A block scalar. -/
def readBlockToken? (s : Scanner) (folded : Bool) : Option Scanner := do
  let s ← s.dropCandidate?
  let (text, c) ← readBlock? folded s.indent s.cursor
  return { s with keyAllowed := true }.pushRead (.scalar false (String.ofList text), c)

/-- A plain scalar. -/
def readPlainToken? (s : Scanner) : Option Scanner := do
  let s ← s.mark?
  let (text, broken, c) ← readPlain? ⟨s.inFlow, (s.indent + 1).toNat⟩ s.cursor
  return { s with keyAllowed := broken }.pushRead (.scalar true (String.ofList text), c)

/-- A character that no plain scalar begins with. -/
def isIndicator (x : Char) : Bool :=
  "-?:,[]\x7b\x7d#&*!|>%@".toList.contains x ||
    x.toNat == 0x27 || x.toNat == 0x22 || x.toNat == 0x60

/-- A plain scalar may begin with this character. -/
def startsPlain (s : Scanner) (x : Char) : Bool :=
  !(isIndicator x || isSpace x || isBreak x) || (x == '-' && !(s.cursor.peek 1).any isSpace) ||
    (!s.inFlow && (x == '?' || x == ':') && !s.cursor.isGapAt 1)

/-- Reads the token that begins with the character `x`. -/
def readToken? (s : Scanner) (x : Char) : Option Scanner :=
  let c := s.cursor
  if c.column == 0 && x == '%' then do
    let s ← s.leaveBlocks?
    return s.pushRead (← readDirective? s.cursor)
  else if c.atMarker '-' then s.leaveBlocks?.map (·.pushMark 3 .documentStart)
  else if c.atMarker '.' then s.leaveBlocks?.map (·.pushMark 3 .documentEnd)
  else if x == '[' then s.openFlow? .flowSequence
  else if x.toNat == 0x7B then s.openFlow? .flowMapping
  else if x == ']' then s.closeFlow? .flowSequenceEnd
  else if x.toNat == 0x7D then s.closeFlow? .flowMappingEnd
  else if x == ',' then
    s.dropCandidate?.map fun s => { s with keyAllowed := true }.pushMark 1 .flowEntry
  else if x == '-' && c.isGapAt 1 then s.openEntry? .blockSequence .blockEntry true
  else if x == '?' && (s.inFlow || c.isGapAt 1) then s.openEntry? .blockMapping .key (!s.inFlow)
  else if x == ':' && (s.inFlow || c.isGapAt 1) then s.readColon?
  else if x == '*' then
    s.readAtom? fun c => (readAnchorName? c).map fun (name, c) => (.alias name, c)
  else if x == '&' then
    s.readAtom? fun c => (readAnchorName? c).map fun (name, c) => (.anchor name, c)
  else if x == '!' then s.readAtom? (readTag? s.inFlow)
  else if x == '|' && !s.inFlow then s.readBlockToken? false
  else if x == '>' && !s.inFlow then s.readBlockToken? true
  else if x.toNat == 0x27 then s.readQuotedToken? .single
  else if x.toNat == 0x22 then s.readQuotedToken? .double
  else if s.startsPlain x then s.readPlainToken?
  else none

/-- Reads the tokens up to the end of the text. -/
def run? : Nat → Scanner → Option (List Token)
  | 0, _ => none
  | fuel + 1, s => do
    let s := skipToToken (s.cursor.rest.length + 1) s
    let s := (← s.dropStale?).closeBlocks s.cursor.column
    match s.cursor.peek 0 with
    | some x => run? fuel (← s.readToken? x)
    | none => s.leaveBlocks?.map (·.found.reverse)

end Scanner

/-- The tokens of a text. A byte order mark may stand in front; `none` if the text holds a character
that no stream may contain or a malformed token. -/
def Token.scan? (text : String) : Option (List Token) :=
  let cs := match text.toList with
    | c :: cs => if c.toNat == 0xFEFF then cs else c :: cs
    | [] => []
  if cs.all isAllowed then Scanner.run? (cs.length + 1) (.start cs) else none

end ProximityLab.Yaml
