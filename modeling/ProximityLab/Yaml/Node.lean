import ProximityLab.Yaml.Token

/-!
# YAML nodes

A `Node` is a document as it is written: scalars keep their text and their tags, and an alias holds
the node that it repeats. `Node.ofTokens?` reads the one document of a stream. A name that is not
known, or stands for a node that is not complete, makes the document malformed.
-/

namespace ProximityLab.Yaml

/-- A document as it is written. -/
inductive Node where
  | alias (target : Node)
  | scalar (tag : Option String) (plain : Bool) (text : String)
  | sequence (tag : Option String) (items : List Node)
  | mapping (tag : Option String) (entries : List (Node × Node))
  deriving Inhabited

namespace Node

/-- What stands where nothing is written. -/
def empty : Node := .scalar none true ""

mutual

/-- The count of marks that make up a node: one for a scalar or an alias, two around a
collection. -/
def marks : Node → Nat
  | .alias _ => 1
  | .scalar .. => 1
  | .sequence _ items => 2 + itemMarks items
  | .mapping _ entries => 2 + entryMarks entries

/-- The count of marks of the items of a sequence. -/
def itemMarks : List Node → Nat
  | [] => 0
  | n :: ns => marks n + itemMarks ns

/-- The count of marks of the entries of a mapping. -/
def entryMarks : List (Node × Node) → Nat
  | [] => 0
  | (k, v) :: es => marks k + marks v + entryMarks es

end

/-! ## Reading -/

/-- The tokens that are left, and the named nodes in the order in which they began. A node that is
not complete has no value yet. -/
structure Reading where
  tokens : List Token
  anchors : List (String × Option Node)

/-- A step that reads tokens and may fail. -/
abbrev Reader := StateT Reading Option

/-- The next token. -/
def next : Reader (Option Token) := return (← get).tokens.head?

/-- Passes a token. -/
def pass : Reader Unit := modify fun r => { r with tokens := r.tokens.drop 1 }

/-- The next token is one of the given. -/
def nextIn (ts : List Token) : Reader Bool := return (← next).any fun t => ts.contains t

/-- Passes the given token if it is next. -/
def passIf (t : Token) : Reader Bool := do
  if ← nextIn [t] then
    pass
    return true
  else return false

/-- Passes the given token, which has to be next. -/
def expect (t : Token) : Reader Unit := do
  if !(← passIf t) then failure

/-- The properties in front of a node. -/
structure Properties where
  anchor : Option String
  tag : Option String

/-- The tag that a handle and a text denote. -/
def resolveTag? (handles : List (String × String)) (handle rest : String) : Option String :=
  if handle.isEmpty then some rest
  else (handles.find? (·.1 == handle)).map fun h => h.2 ++ rest

/-- Reads an anchor, if one is next. -/
def readAnchor : Reader (Option String) := do
  match ← next with
  | some (.anchor name) =>
    pass
    return some name
  | _ => return none

/-- Reads a tag, if one is next. -/
def readTag (handles : List (String × String)) : Reader (Option String) := do
  match ← next with
  | some (.tag handle rest) =>
    pass
    return some (← resolveTag? handles handle rest)
  | _ => return none

/-- Reads an anchor and a tag, in any order; both may be missing. -/
def readProperties (handles : List (String × String)) : Reader Properties := do
  match ← readAnchor with
  | some name => return ⟨some name, ← readTag handles⟩
  | none =>
    match ← readTag handles with
    | some tag => return ⟨← readAnchor, some tag⟩
    | none => return ⟨none, none⟩

/-- Reads a node and names it by its anchor. -/
def named (anchor : Option String) (read : Reader Node) : Reader Node := do
  match anchor with
  | none => read
  | some name =>
    let place := (← get).anchors.length
    modify fun r => { r with anchors := r.anchors ++ [(name, none)] }
    let node ← read
    modify fun r => { r with anchors := r.anchors.set place (name, some node) }
    return node

/-- The node that a name stands for: the last one that was given the name. -/
def lookup (name : String) : Reader Node := do
  match (← get).anchors.reverse.find? (·.1 == name) with
  | some (_, some node) => return node
  | _ => failure

mutual

/-- Reads a node. Inside a block collections may be blocks, and below a key the entries of a
sequence may stand without further indentation. -/
def readNode (handles : List (String × String)) (block indentless : Bool) : Nat → Reader Node
  | 0 => failure
  | fuel + 1 => do
    if let some (.alias name) ← next then
      pass
      return .alias (← lookup name)
    let ⟨anchor, tag⟩ ← readProperties handles
    named anchor do
      match ← next with
      | some (.scalar plain text) =>
        pass
        return .scalar (if tag = some "!" then none else tag) plain text
      | some .flowSequence =>
        pass
        return .sequence tag (← readFlowItems handles true fuel)
      | some .flowMapping =>
        pass
        return .mapping tag (← readFlowEntries handles true fuel)
      | t =>
        if indentless && t = some .blockEntry then
          return .sequence tag (← readIndentlessItems handles fuel)
        else if block && t = some .blockSequence then
          pass
          return .sequence tag (← readBlockItems handles fuel)
        else if block && t = some .blockMapping then
          pass
          return .mapping tag (← readBlockEntries handles fuel)
        else if anchor.isSome || tag.isSome then return .scalar tag true ""
        else failure

/-- Reads a node, or the empty node before one of the given tokens. -/
def readUnless (handles : List (String × String)) (ends : List Token) (block indentless : Bool) :
    Nat → Reader Node
  | 0 => failure
  | fuel + 1 => do
    if ← nextIn ends then return .empty else readNode handles block indentless fuel

/-- Reads the entries of a block sequence and its end. -/
def readBlockItems (handles : List (String × String)) : Nat → Reader (List Node)
  | 0 => failure
  | fuel + 1 => do
    if ← passIf .blockEntry then
      let item ← readUnless handles [.blockEntry, .blockEnd] true false fuel
      return item :: (← readBlockItems handles fuel)
    else
      expect .blockEnd
      return []

/-- Reads the entries of a sequence that is not indented. -/
def readIndentlessItems (handles : List (String × String)) : Nat → Reader (List Node)
  | 0 => failure
  | fuel + 1 => do
    if ← passIf .blockEntry then
      let item ← readUnless handles [.blockEntry, .key, .value, .blockEnd] true false fuel
      return item :: (← readIndentlessItems handles fuel)
    else return []

/-- Reads the entries of a block mapping and its end. -/
def readBlockEntries (handles : List (String × String)) : Nat → Reader (List (Node × Node))
  | 0 => failure
  | fuel + 1 => do
    if ← passIf .key then
      let ends := [Token.key, .value, .blockEnd]
      let key ← readUnless handles ends true true fuel
      let value ← if ← passIf .value then readUnless handles ends true true fuel else pure .empty
      return (key, value) :: (← readBlockEntries handles fuel)
    else
      expect .blockEnd
      return []

/-- Reads the items of a flow sequence and its end. A key among the items makes a mapping of one
entry. -/
def readFlowItems (handles : List (String × String)) (first : Bool) : Nat → Reader (List Node)
  | 0 => failure
  | fuel + 1 => do
    if ← passIf .flowSequenceEnd then return []
    if !first then expect .flowEntry
    if ← passIf .flowSequenceEnd then return []
    if ← passIf .key then
      let item ← readPair handles fuel
      return item :: (← readFlowItems handles false fuel)
    else
      let item ← readNode handles false false fuel
      return item :: (← readFlowItems handles false fuel)

/-- Reads a mapping of one entry, whose key mark is passed. A key that is missing takes the token
in its place with it. -/
def readPair (handles : List (String × String)) : Nat → Reader Node
  | 0 => failure
  | fuel + 1 => do
    let key ←
      if ← nextIn [.value, .flowEntry, .flowSequenceEnd] then do
        pass
        pure .empty
      else readNode handles false false fuel
    let value ←
      if ← passIf .value then readUnless handles [.flowEntry, .flowSequenceEnd] false false fuel
      else pure .empty
    return .mapping none [(key, value)]

/-- Reads the entries of a flow mapping and its end. -/
def readFlowEntries (handles : List (String × String)) (first : Bool) :
    Nat → Reader (List (Node × Node))
  | 0 => failure
  | fuel + 1 => do
    if ← passIf .flowMappingEnd then return []
    if !first then expect .flowEntry
    if ← passIf .flowMappingEnd then return []
    let ends := [Token.flowEntry, .flowMappingEnd]
    if ← passIf .key then
      let key ← readUnless handles (.value :: ends) false false fuel
      let value ← if ← passIf .value then readUnless handles ends false false fuel else pure .empty
      return (key, value) :: (← readFlowEntries handles false fuel)
    else
      let key ← readNode handles false false fuel
      return (key, .empty) :: (← readFlowEntries handles false fuel)

end

/-! ## Documents -/

/-- The handles that every document knows. -/
def defaultHandles : List (String × String) := [("!", "!"), ("!!", "tag:yaml.org,2002:")]

/-- Reads the directives of a document; a version may be given once and a handle defined once. -/
def readDirectives (versionSeen : Bool) (handles : List (String × String)) :
    List Token → Option (List (String × String) × List Token)
  | .version major minor :: ts =>
    if versionSeen || major != 1 || !(minor == 1 || minor == 2) then none
    else readDirectives true handles ts
  | .tagHandle handle meaning :: ts =>
    if handles.any (·.1 == handle) then none
    else readDirectives versionSeen (handles ++ [(handle, meaning)]) ts
  | ts => some (handles, ts)

/-- Reads the content of a document up to its end. -/
def readContent (handles : List (String × String)) (tokens : List Token) :
    Option (Node × List Token) :=
  ((readNode handles true false (4 * tokens.length + 4)).run ⟨tokens, []⟩).map fun (node, r) =>
    (node, r.tokens)

/-- A token that cannot begin the content of a document. -/
def endsDocument : Token → Bool
  | .version .. | .tagHandle .. | .documentStart | .documentEnd => true
  | _ => false

/-- Reads a document that is introduced by directives or its start marker. -/
def readMarked (tokens : List Token) : Option (Node × List Token) := do
  let (handles, tokens) ← readDirectives false [] tokens
  match tokens with
  | .documentStart :: ts =>
    if ts.head?.all endsDocument then return (.empty, ts)
    else readContent (handles ++ defaultHandles) ts
  | _ => none

/-- The document of a stream: `some none` for a stream without a document, `none` for a malformed
stream or one with a second document. -/
def ofTokens? (tokens : List Token) : Option (Option Node) :=
  match tokens with
  | [] => some none
  | t :: _ => do
    let marked := endsDocument t && t != .documentEnd
    let (node, rest) ← if marked then readMarked tokens else readContent defaultHandles tokens
    if (rest.dropWhile (· == .documentEnd)).isEmpty then return some node else none

end Node

end ProximityLab.Yaml
