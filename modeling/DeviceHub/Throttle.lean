import DeviceHub.Sorted

/-!
# Throttling of samples

* `Throttle`        for every tracked key the time of its last accepted sample;
* `Throttle.allow`  whether a sample may be written, and the throttle after the decision.

A sample is suppressed when it is not older than the last accepted one of its key and less than the
interval newer.  A sample that is older restarts the window of its key.  When a new key would go
beyond the soft capacity, the entries that suppress nothing at the time of the sample are dropped.
-/

namespace DeviceHub

def maxInt64 : Nat := 0x7fffffffffffffff

/-- the difference of two times, kept within 64 bits -/
def elapsed (now last : Int64) : Int :=
  max (-0x8000000000000000) (min (maxInt64 : Int) (now.toInt - last.toInt))

/-- the throttle of samples -/
structure Throttle where
  interval : Nat
  capacity : Nat := 100000
  last : List (String × Int64) := []

namespace Throttle

/-- a throttle that tracks nothing yet, with its interval kept within 64 bits -/
def new (interval : Nat) : Throttle := { interval := min interval maxInt64 }

/-- the throttle with another soft capacity; zero counts as one -/
def withCapacity (t : Throttle) (capacity : Nat) : Throttle :=
  { t with capacity := max capacity 1 }

/-- An interval of zero lets everything pass. -/
def isEnabled (t : Throttle) : Bool := 0 < t.interval

def key (device metric : String) : String := device ++ "|" ++ metric

/-- whether an accepted sample at `last` suppresses one at `at_` -/
def suppresses (t : Throttle) (at_ last : Int64) : Bool :=
  0 ≤ elapsed at_ last && elapsed at_ last < t.interval

/-- the entries that would suppress a sample of their key at a time -/
def prune (t : Throttle) (at_ : Int64) : List (String × Int64) :=
  t.last.filter fun e => t.suppresses at_ e.2

/-- whether a sample may be written, and the throttle that remembers it if so -/
def allow (t : Throttle) (device metric : String) (at_ : Int64) : Bool × Throttle :=
  if t.isEnabled then
    let k := key device metric
    match Sorted.find? k t.last with
    | some last =>
      if t.suppresses at_ last then (false, t)
      else (true, { t with last := Sorted.insert k at_ t.last })
    | none =>
      -- fresh entries stay beyond the capacity, which is a soft one
      let kept := if t.capacity ≤ t.last.length then t.prune at_ else t.last
      (true, { t with last := Sorted.insert k at_ kept })
  else (true, t)

def size (t : Throttle) : Nat := t.last.length

end Throttle

end DeviceHub
