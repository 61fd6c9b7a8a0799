import ProximityLab.Testbed.Board
import ProximityLab.Text.Quoted
import ProximityLab.Time.Span

/-!
# Failures of the testbed

Why a request to the testbed was refused, by this library's checks or by the testbed itself.
-/

namespace ProximityLab

/-- Why a request to the testbed failed. -/
inductive TestbedError where
  | unknownSite (site : String)
  | unsupportedBoard (board : String)
  /-- The text holds no address of a known board. -/
  | invalidAddress (address : String)
  | siteMismatch (address site : String)
  | boardMismatch (address board : String)
  /-- The reservation is neither running nor about to. -/
  | unexpectedState (reservation : Nat) (state : String)
  | waitTimeout (reservation : Nat) (waited : TimeSpan)
  /-- No answer, or an answer that cannot be read. -/
  | badAnswer
  /-- An answer that reports a failure. -/
  | status (code : Nat) (body : String)
  | missingCredentials
  deriving DecidableEq

namespace TestbedError

/-- A list of texts for people to read. -/
def listText (xs : List String) : String := "[" ++ ", ".intercalate (xs.map Text.quoted) ++ "]"

/-- The failure for people to read. -/
def message : TestbedError → String
  | unknownSite site => s!"iotlab site must be one of {listText Testbed.sites}, got {site}"
  | unsupportedBoard board => s!"{board} BOARD unsupported in iotlab"
  | invalidAddress address =>
    s!"unable to parse {address} as IoT-LAB node name of format " ++
      "<node-name>.<site-name>.iot-lab.info"
  | siteMismatch address site => s!"all nodes must be on the same site ({site}), got {address}"
  | boardMismatch address board => s!"IOTLAB_NODE {address} doesn't match BOARD {board}"
  | unexpectedState reservation state =>
    s!"experiment {reservation} entered state {state} instead of Running"
  | waitTimeout reservation waited =>
    s!"experiment {reservation} not running after {waited.text}"
  | badAnswer => "testbed request failed"
  | status code body => s!"testbed returned status {code}: {body}"
  | missingCredentials =>
    "missing testbed credentials (set IOTLAB_USER and IOTLAB_PASSWORD)"

end TestbedError

end ProximityLab
