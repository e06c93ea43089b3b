import Mathlib.Data.Int.Init

/-!
The parts of Go's `time` package the daemon uses. An instant is its distance
from the Unix epoch in nanoseconds; monotonic readings and locations do not
take part in any comparison made here. A duration is the 64-bit nanosecond
count of the source, with its wrapping arithmetic.
-/

namespace Go

abbrev Duration := Int64

namespace Duration

def millisecond : Duration := 1000000

def second : Duration := 1000 * millisecond

def hour : Duration := 3600 * second

/-- `Duration.Milliseconds`: integer division, rounding toward zero. -/
def milliseconds (d : Duration) : Int64 := d / millisecond

/-- `time.Duration(ms) * time.Millisecond`, which wraps. -/
def ofMilliseconds (ms : Int64) : Duration := ms * millisecond

end Duration

abbrev Time := Int

namespace Time

/-- `time.Time{}`: January 1 of year 1, UTC. -/
def zero : Time := -62135596800000000000

def isZero (t : Time) : Bool := decide (t = zero)

def after (t u : Time) : Bool := decide (u < t)

def add (t : Time) (d : Duration) : Time := t + d.toInt

/-- `Time.Sub`, which saturates. -/
def sub (t u : Time) : Duration :=
  if Int64.maxValue.toInt < t - u then Int64.maxValue
  else if t - u < Int64.minValue.toInt then Int64.minValue
  else Int64.ofInt (t - u)

/-- `time.UnixMilli`. -/
def ofUnixMilli (ms : Int64) : Time := ms.toInt * 1000000

/-- `Time.UnixMilli`: whole milliseconds, rounding down. -/
def unixMilli (t : Time) : Int64 := Int64.ofInt (t / 1000000)

/-- The years RFC 3339 can write, 0 to 9999; `Time.MarshalJSON` refuses others. -/
def inJSONRange (t : Time) : Bool :=
  decide (-62167219200000000000 ≤ t) && decide (t < 253402300800000000000)

end Time
end Go
