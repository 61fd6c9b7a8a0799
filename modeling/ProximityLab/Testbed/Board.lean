/-!
# Boards of the testbed

The testbed knows a board under an architecture name of its own and pairs it with a radio. The table
`boards` lists the boards that can be booked; no board and no architecture name occurs twice.
-/

namespace ProximityLab.Testbed

/-- A kind of device that can be booked. -/
structure Board where
  /-- The name under which firmware is built. -/
  name : String
  /-- The name in the testbed's node addresses. -/
  archi : String
  radio : String
  deriving DecidableEq

/-- The boards that can be booked. -/
def boards : List Board :=
  [⟨"arduino-zero", "arduino-zero", "xbee"⟩,
    ⟨"b-l072z-lrwan1", "st-lrwan1", "sx1276"⟩,
    ⟨"b-l475e-iot01a", "st-iotnode", "multi"⟩,
    ⟨"dwm1001", "dwm1001", "dw1000"⟩,
    ⟨"firefly", "firefly", "multi"⟩,
    ⟨"frdm-kw41z", "frdm-kw41z", "multi"⟩,
    ⟨"iotlab-a8-m3", "a8", "at86rf231"⟩,
    ⟨"iotlab-m3", "m3", "at86rf231"⟩,
    ⟨"microbit", "microbit", "ble"⟩,
    ⟨"nrf51dk", "nrf51dk", "ble"⟩,
    ⟨"nrf52dk", "nrf52dk", "ble"⟩,
    ⟨"nrf52832-mdk", "nrf52832mdk", "ble"⟩,
    ⟨"nrf52840dk", "nrf52840dk", "multi"⟩,
    ⟨"nrf52840-mdk", "nrf52840mdk", "multi"⟩,
    ⟨"pba-d-01-kw2x", "phynode", "kw2xrf"⟩,
    ⟨"samr21-xpro", "samr21", "at86rf233"⟩,
    ⟨"samr30-xpro", "samr30", "at86rf212b"⟩]

/-- The sites of the testbed. -/
def sites : List String := ["grenoble", "lille", "saclay"]

/-- The board of a name. -/
def board? (name : String) : Option Board := boards.find? (·.name == name)

/-- The board of an architecture name. -/
def boardOfArchi? (archi : String) : Option Board := boards.find? (·.archi == archi)

/-- The architecture as a request names it. -/
def Board.resourceName (b : Board) : String := b.archi ++ ":" ++ b.radio

end ProximityLab.Testbed
