import ProximityLab.Number.FloatText

/-!
# Spans of time

A `TimeSpan` is a count of nanoseconds. A span can be written and added as long as its whole seconds
fit 64 bits (`TimeSpan.Fits`); the operations that could leave that range answer `none` there.
Instants and deadlines are counted in whole milliseconds, and a span that ends between two of them
ends at the later one (`TimeSpan.millisUp`).
-/

namespace ProximityLab

/-- A span of time. -/
structure TimeSpan where
  nanos : Nat
  deriving DecidableEq, Inhabited

namespace TimeSpan

/-- Nanoseconds in a second. -/
def perSecond : Nat := 1000000000

/-- The whole seconds. -/
def seconds (d : TimeSpan) : Nat := d.nanos / perSecond

/-- The nanoseconds beyond the whole seconds. -/
def subsecond (d : TimeSpan) : Nat := d.nanos % perSecond

/-- The whole seconds fit 64 bits. -/
def Fits (d : TimeSpan) : Prop := d.seconds < 0x10000000000000000

instance (d : TimeSpan) : Decidable d.Fits := inferInstanceAs (Decidable (_ < _))

def zero : TimeSpan := ⟨0⟩

/-- A span of milliseconds. -/
def ofMillis (ms : Nat) : TimeSpan := ⟨ms * 1000000⟩

/-- A span of seconds. -/
def ofSeconds (s : Nat) : TimeSpan := ⟨s * perSecond⟩

/-- The span if it can be represented. -/
def checked (d : TimeSpan) : Option TimeSpan := if d.Fits then some d else none

/-- The nearest span to a count of seconds; `none` for a negative number, for NaN and for what does
not fit. -/
def ofFloatSeconds? (x : Binary64) : Option TimeSpan :=
  if x.isNaN || (x.negative && x.magnitude != 0) || !x.isFinite then none
  else checked ⟨x.scaled perSecond⟩

/-- The sum of two spans, if it fits. -/
def add? (a b : TimeSpan) : Option TimeSpan := checked ⟨a.nanos + b.nanos⟩

/-- Whole milliseconds, counting a started one. -/
def millisUp (d : TimeSpan) : Nat := (d.nanos + 999999) / 1000000

/-- A count with a fraction of `places` decimal places, without zeros at the end. -/
def decimalText (whole fraction places : Nat) : String :=
  let ds := (paddedDigits places fraction).reverse.dropWhile (· == '0') |>.reverse
  toString whole ++ if fraction = 0 then "" else "." ++ String.ofList ds

/-- A span for people to read, in the largest unit that it reaches. -/
def text (d : TimeSpan) : String :=
  let n := d.nanos
  if perSecond ≤ n then decimalText d.seconds d.subsecond 9 ++ "s"
  else if 1000000 ≤ n then decimalText (n / 1000000) (n % 1000000) 6 ++ "ms"
  else if 1000 ≤ n then decimalText (n / 1000) (n % 1000) 3 ++ "µs"
  else decimalText n 0 0 ++ "ns"

end TimeSpan

/-- A duration in milliseconds for a report: milliseconds below a second, then seconds and minutes
with one place. -/
def elapsedText (ms : Nat) : String :=
  if ms < 1000 then toString ms ++ "ms"
  else if ms < 60000 then fixedPoint 1 ((Binary64.ofNat ms).div (.ofNat 1000)) ++ "s"
  else fixedPoint 1 ((Binary64.ofNat ms).div (.ofNat 60000)) ++ "m"

end ProximityLab
