import ProximityLab.Text.Lines
import ProximityLab.Text.Utf8

/-!
# Requests and responses over HTTP

What travels between a client and a server, as far as either can see it. `Http.target?` is the part
of an address that a request line shows: dot segments are resolved, and characters that have no
place there are percent-encoded.
-/

namespace ProximityLab.Http

/-- A request, with the only part of its body if it has one. -/
structure Request where
  method : String
  /-- The path and the query. -/
  target : String
  authorization : String
  /-- The header lines of the part, sorted, and its content. -/
  part : Option (List String × String)
  deriving DecidableEq

/-- A response. -/
structure Response where
  status : Nat
  body : String
  deriving DecidableEq

namespace Response

/-- The response has a status that a client takes for an answer. -/
def isFinal (r : Response) : Bool := r.status = 101 || 200 ≤ r.status && r.status < 1000

/-- The response reports success. -/
def isSuccess (r : Response) : Bool := 200 ≤ r.status && r.status < 300

/-- The body as it arrives: some statuses never have one. -/
def content (r : Response) : String :=
  if r.status < 200 || r.status = 204 || r.status = 304 then "" else r.body

/-- The content as a text: a byte order mark is no part of it. -/
def text (r : Response) : String :=
  match r.content.toList with
  | c :: cs => if c = Char.ofNat 0xFEFF then String.ofList cs else r.content
  | [] => ""

end Response

/-! ## Addresses -/

/-- The digits of a percent-encoded byte. -/
def encodeByte (b : UInt8) : List Char :=
  let digit (n : Nat) : Char := (Nat.toDigits 16 n).headD '0' |>.toUpper
  ['%', digit (b.toNat / 16), digit (b.toNat % 16)]

/-- A character as it is written where some others have no place: as itself if it is visible ASCII
and not among them, else byte by byte. -/
def encodeOne (others : List Char) (c : Char) : List Char :=
  if '!' ≤ c ∧ c ≤ '~' ∧ c ∉ others then [c] else (Text.encodeChar c).flatMap encodeByte

/-- A text as it is written where some others have no place. -/
def encodeChars (others : List Char) (cs : List Char) : List Char := cs.flatMap (encodeOne others)

/-- What is encoded in a path beside what is never visible. -/
def pathOthers : List Char :=
  [Char.ofNat 0x22, '#', '<', '>', '?', Char.ofNat 0x60, Char.ofNat 0x7B, Char.ofNat 0x7D]

/-- What is encoded in a query beside what is never visible. -/
def queryOthers : List Char := [Char.ofNat 0x22, '#', '<', '>', Char.ofNat 0x27]

/-- A dot, plain or encoded, leads a segment of a path. -/
def dropDot? : List Char → Option (List Char)
  | '.' :: cs => some cs
  | '%' :: '2' :: e :: cs => if e = 'e' || e = 'E' then some cs else none
  | _ => none

/-- The segment stays where it is. -/
def isHere (segment : List Char) : Bool := dropDot? segment = some []

/-- The segment goes one level up. -/
def isUp (segment : List Char) : Bool := (dropDot? segment).bind dropDot? = some []

/-- Resolves dot segments behind those that are done. -/
def resolve (done : List (List Char)) : List (List Char) → List (List Char)
  | [] => done
  | [s] => if isUp s then done.dropLast ++ [[]] else if isHere s then done ++ [[]] else done ++ [s]
  | s :: ss =>
    resolve (if isUp s then done.dropLast else if isHere s then done else done ++ [s]) ss

/-- A character that ends a segment of a path. -/
def isSlash (c : Char) : Bool := c = '/' || c = '\\'

/-- A path as a request shows it. -/
def pathTarget (cs : List Char) : List Char :=
  let plain := (cs.dropWhile isSlash).length
  let steps := Text.splitOn '/' (cs.map fun c => if isSlash c then '/' else c)
  let segments := if plain = cs.length then steps else steps.drop 1
  (resolve [] segments).flatMap fun s => '/' :: encodeChars pathOthers s

/-- The place of a server is well-formed: there is a host, and a port is a small enough number. -/
def isAuthority (cs : List Char) : Bool :=
  let place := ((Text.splitOn '@' cs).getLast?).getD []
  match Text.splitOn ':' place with
  | [host] => !host.isEmpty
  | [host, port] =>
    !host.isEmpty && port.all Char.isDigit && ((String.ofList port).toNat?.getD 0) < 65536
  | _ => false

/-- What follows the scheme of an address. -/
def afterScheme? (cs : List Char) : Option (List Char) :=
  let named (scheme : String) : Option (List Char) :=
    if scheme.toList.isPrefixOf ((cs.take scheme.length).map Char.toLower) then
      some (cs.drop scheme.length)
    else none
  ((named "http:").orElse fun _ => named "https:").map (·.dropWhile isSlash)

/-- The path and the query of an address, as a request shows them; `none` if the address is
malformed. What follows a hash is not sent. -/
def target? (url : String) : Option String := do
  let cs := url.toList.filter fun c => c ≠ '\t' && c ≠ '\n' && c ≠ '\r'
  let rest ← afterScheme? cs
  let ends (c : Char) : Bool := isSlash c || c = '?' || c = '#'
  let authority := rest.takeWhile fun c => !ends c
  let sent := (rest.drop authority.length).takeWhile (· ≠ '#')
  let path := sent.takeWhile (· ≠ '?')
  let query := sent.drop path.length
  if isAuthority authority then
    some (String.ofList (pathTarget path ++ encodeChars queryOthers query))
  else none

end ProximityLab.Http
