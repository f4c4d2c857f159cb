/-!
# Durations

* `Duration`           a time span of whole nanoseconds, at most `Duration.longest`;
* `Duration.ofMillis`, `Duration.millis`  a span from and in milliseconds;
* `Duration.ticks`     how long a timer takes for a span;
* `Duration.double`    twice a span, or the longest one.
-/

namespace DeviceHub

/-- The longest span: one nanosecond less than 2 ^ 64 seconds. -/
def Duration.longest : Nat := 0x10000000000000000 * 1000000000 - 1

/-- a time span -/
structure Duration where
  nanos : Nat
  nanos_le : nanos ≤ Duration.longest
deriving DecidableEq

namespace Duration

/-- the span of as many nanoseconds, or the longest one -/
def ofNanos (n : Nat) : Duration := ⟨min n longest, Nat.min_le_right _ _⟩

def ofMillis (ms : UInt64) : Duration := ofNanos (ms.toNat * 1000000)

/-- the whole milliseconds of a span -/
def millis (d : Duration) : Nat := d.nanos / 1000000

/-- the fewest whole milliseconds that cover a span: a timer never ends early -/
def ticks (d : Duration) : Nat := (d.nanos + 999999) / 1000000

def isZero (d : Duration) : Bool := d.nanos = 0

def min (a b : Duration) : Duration := if a.nanos ≤ b.nanos then a else b

/-- twice a span, or the longest one -/
def double (d : Duration) : Duration := ofNanos (2 * d.nanos)

end Duration

end DeviceHub
