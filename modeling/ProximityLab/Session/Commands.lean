import ProximityLab.Campaign.Params
import ProximityLab.Session.Basic
import ProximityLab.Text.Quoted
import ProximityLab.Time.Calendar

/-!
# Commands of the device shell

What a session asks of a device and how it reads the answers. An answer is looked for in every line
of a reply: `Capture.find` takes the first line in which a pattern occurs. A pattern is a label,
blanks and a value.
-/

namespace ProximityLab

/-! ## Values behind labels -/

/-- The value behind the first occurrence of a label at which the pattern holds. -/
def valueBehind? (label : List Char) (value : List Char → Option (List Char)) :
    List Char → Option (List Char)
  | [] => none
  | c :: cs =>
    let here :=
      if label.isPrefixOf (c :: cs) then
        let rest := (c :: cs).drop label.length
        if rest.head?.any Text.isBlank then value (rest.dropWhile Text.isBlank) else none
      else none
    here.or (valueBehind? label value cs)

/-- An identifier of a device. -/
def uidValue? : List Char → Option (List Char)
  | 'D' :: 'W' :: cs =>
    let run := cs.takeWhile Char.isAlphanum
    if run.isEmpty then none else some ('D' :: 'W' :: run)
  | _ => none

/-- A word. -/
def wordValue? (cs : List Char) : Option (List Char) :=
  let run := cs.takeWhile Char.isAlpha
  if run.isEmpty then none else some run

/-- Digits up to the end of the line. -/
def digitsValue? (cs : List Char) : Option (List Char) :=
  if !cs.isEmpty && cs.all Text.isDigit then some cs else none

/-- Whether characters follow a picture in which a zero stands for any digit. -/
def matchesPicture : List Char → List Char → Bool
  | [], [] => true
  | p :: ps, c :: cs => (if p = '0' then Text.isDigit c else c = p) && matchesPicture ps cs
  | _, _ => false

/-- A date and a time up to the end of the line. -/
def dateValue? (cs : List Char) : Option (List Char) :=
  if matchesPicture "0000-00-00 00:00:00".toList cs then some cs else none

/-- The value behind a label in the first line that has one. -/
def Capture.find (c : Capture) (label : String) (value : List Char → Option (List Char)) :
    Option (List Char) :=
  c.lines.findSome? fun line => valueBehind? label.toList value line.toList

/-- The number of a text of digits, if it fits 64 bits. -/
def number64? (cs : List Char) : Option Nat :=
  if cs.all Numeral.isDigit then
    let n := Numeral.valueOf cs
    if n < 0x10000000000000000 then some n else none
  else none

/-- The number in a part of a text. -/
def fieldOf (cs : List Char) (start width : Nat) : Nat :=
  Numeral.valueOf ((cs.drop start).take width)

/-- The date and time of a text that follows the picture; digits of other scripts make none. -/
def DateTime.ofPicture? (cs : List Char) : Option DateTime :=
  if cs.all fun c => Numeral.isDigit c || !Text.isDigit c then
    DateTime.ofFields? (fieldOf cs 0 4) (fieldOf cs 5 2) (fieldOf cs 8 2) (fieldOf cs 11 2)
      (fieldOf cs 14 2) (fieldOf cs 17 2)
  else none

/-! ## Commands -/

/-- The clock of a device as it reports it. -/
structure DeviceTime where
  epoch : Option Nat
  date : Option DateTime
  deriving DecidableEq

/-- The identifier in a reply. -/
def Capture.uid? (c : Capture) : Option String := (c.find "uid" uidValue?).map String.ofList

/-- The reply says that a campaign is running. -/
def Capture.isActive (c : Capture) : Bool :=
  c.find "status:" wordValue? = some "active".toList

/-- The clock in a reply. -/
def Capture.deviceTime (c : Capture) : DeviceTime :=
  ⟨(c.find "Epoch:" digitsValue?).bind number64?,
    (c.find "Date:" dateValue?).bind DateTime.ofPicture?⟩

/-- The line that starts a campaign. -/
def startLine (p : Params) : String := "pepper " ++ p.startArgs

/-- The line that stops a campaign. -/
def stopLine : String := "pepper stop"

/-- The line that asks for the identifier. -/
def uidLine : String := "pepper get uid"

/-- The line that sets the clock. -/
def setTimeLine (d : DateTime) : String := "time " ++ d.spaced

namespace Talk

/-- The identifier of the device, if the reply has one. -/
def uid (limit : TimeSpan) : Talk (Option String) := return (← command limit uidLine).uid?

/-- Whether a campaign is running. -/
def status (limit : TimeSpan) : Talk Bool := return (← command limit "pepper status").isActive

/-- Starts a campaign; its output is left to the caller. -/
def start (p : Params) : Talk Unit := dispatch (startLine p)

/-- Asks a running campaign to stop; its output is left to the caller. -/
def stop : Talk Unit := dispatch stopLine

/-- Sets a value on the device. -/
def setValue (limit : TimeSpan) (key value : String) : Talk Capture :=
  command limit s!"pepper set {key} {value}"

/-- The clock of the device. -/
def time (limit : TimeSpan) : Talk DeviceTime := return (← command limit "time").deviceTime

/-- Sets the clock of the device. -/
def setTime (limit : TimeSpan) (d : DateTime) : Talk Capture := command limit (setTimeLine d)

/-- Restarts the device. -/
def reboot (limit : TimeSpan) : Talk Capture := command limit "reboot"

end Talk

/-! ## Sessions -/

/-- What a session knows besides its terminal. -/
structure Session where
  node : String
  commandTimeout : TimeSpan
  deriving DecidableEq

/-- The limit of short commands unless one is given. -/
def Session.defaultTimeout : TimeSpan := .ofSeconds 5

/-- A session for people to read. -/
def Session.text (s : Session) : String :=
  "DeviceSession \x7b node_id: " ++ Text.quoted s.node ++ ", command_timeout: " ++
    s.commandTimeout.text ++ ", .. \x7d"

end ProximityLab
