import DeviceHub.Duration

/-!
# Growing delays

* `Backoff.next`   the delay after a failure, and the backoff after it;
* `Backoff.reset`  the backoff after a success.

Delays double from the initial one on and never exceed the maximum.
-/

namespace DeviceHub

/-- the bounds of delays -/
structure Backoff.Bounds where
  initial : Duration := .ofMillis 1000
  max : Duration := .ofMillis 30000

/-- the bounds of delays, and the next delay -/
structure Backoff where
  bounds : Backoff.Bounds
  upcoming : Duration

namespace Backoff

def new (b : Bounds) : Backoff := ⟨b, b.initial⟩

/-- the delay after a failure, and the backoff for the failures after it -/
def next (b : Backoff) : Duration × Backoff :=
  let delay := b.upcoming.min b.bounds.max
  (delay, { b with upcoming := delay.double.min b.bounds.max })

def reset (b : Backoff) : Backoff := { b with upcoming := b.bounds.initial }

end Backoff

end DeviceHub
