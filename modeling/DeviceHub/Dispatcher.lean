import DeviceHub.Dispatcher.Message
import DeviceHub.Dispatcher.Points
import DeviceHub.Registry
import DeviceHub.Throttle

/-!
# The dispatcher of messages

* `Sink`                  where points go, which may refuse them;
* `Dispatcher`            the registry, the throttle, the sink and the counters;
* `Dispatcher.onMessage`  a message taken in: it is rejected, or the registry and the sink learn of
                          it, and an acknowledgement is passed on.

Nothing is reported back to the sender.  A rejected message changes only two counters.
-/

namespace DeviceHub

open Message

/-- where points go -/
structure Sink (σ : Type) where
  write : σ → Point → σ × Option SinkError

/-- The counters; they wrap around at 2 ^ 64. -/
structure Stats where
  received : UInt64 := 0
  rejected : UInt64 := 0
  written : UInt64 := 0
  suppressed : UInt64 := 0
  refused : UInt64 := 0
  acks : UInt64 := 0
deriving DecidableEq

open Json in
def Stats.write (s : Stats) : Doc :=
  let n (c : UInt64) : Doc := .int c.toNat
  .record [
    ("received", n s.received),
    ("rejected", n s.rejected),
    ("pointsWritten", n s.written),
    ("pointsSuppressed", n s.suppressed),
    ("sinkErrors", n s.refused),
    ("acksForwarded", n s.acks)]

/-- the state of the dispatcher over a sink's state -/
structure Dispatcher (σ : Type) where
  sink : σ
  throttle : Throttle
  registry : Registry := []
  stats : Stats := {}

namespace Dispatcher

variable {σ : Type}

def offer (s : Sink σ) (d : Dispatcher σ) (p : Point) : Dispatcher σ :=
  match s.write d.sink p with
  | (sink, none) =>
    { d with sink := sink, stats := { d.stats with written := d.stats.written + 1 } }
  | (sink, some _) =>
    { d with sink := sink, stats := { d.stats with refused := d.stats.refused + 1 } }

/-- the metrics whose keys are not blank, under their trimmed keys -/
def namedMetrics (t : Telemetry) : List (String × Metric) :=
  (t.metrics.map fun m => (Text.trim m.key, m)).filter fun m => m.1 ≠ ""

def takeMetric (s : Sink σ) (e : Envelope) (d : Dispatcher σ) (m : String × Metric) :
    Dispatcher σ :=
  match d.throttle.allow e.device m.1 e.ts with
  | (false, _) => { d with stats := { d.stats with suppressed := d.stats.suppressed + 1 } }
  | (true, throttle) => { d with throttle := throttle }.offer s (metricPoint e m.1 m.2)

def touch (d : Dispatcher σ) (now : Int64) (e : Envelope) (k : Topic.Kind) : Dispatcher σ :=
  { d with registry := d.registry.touch now e.device e.ts k.name }

def statusOf (r : Report) : Registry.Status where
  status := r.status
  link := nonEmpty? (r.link.map (·.kind))
  ip := nonEmpty? (r.link.bind (·.ip))
  firmware := nonEmpty? r.firmware
  uptime := r.uptime

/-- a message that was read; an acknowledgement is passed on -/
def take (s : Sink σ) (now : Int64) (d : Dispatcher σ) : Inbound → Dispatcher σ × Option Ack
  | .telemetry e t =>
    let metrics := namedMetrics t
    -- the registry learns of all values, also of those that the throttle suppresses
    let registry := d.registry.telemetry now e.device e.ts (metrics.map fun m => (m.1, m.2.value))
    (metrics.foldl (takeMetric s e) { d with registry := registry }, none)
  | .state e r =>
    let registry := d.registry.report now e.device (statusOf r) e.ts
    ({ d with registry := registry }.offer s (statePoint e r), none)
  | .event e ev => ((d.touch now e .event).offer s (eventPoint e ev), none)
  | .ack e a =>
    let d := d.touch now e .ack
    ({ d with stats := { d.stats with acks := d.stats.acks + 1 } }, some a)
  | .configStatus e => (d.touch now e .configStatus, none)
  | .other _ => (d, none)
  | .lastWill device online =>
    -- a last will has no time of its own
    let source := Topic.Kind.lastWill.name
    let registry :=
      if online then d.registry.touch now device now source
      else d.registry.offline now device now source
    ({ d with registry := registry }, none)

def counted (d : Dispatcher σ) (rejected : Bool) : Dispatcher σ :=
  let s := d.stats
  { d with stats := { s with
      received := s.received + 1
      rejected := if rejected then s.rejected + 1 else s.rejected } }

/-- what comes of a message -/
inductive Outcome
  | taken (forwarded : Option Ack)
  | rejected (why : Rejection)

def onMessage (s : Sink σ) (now : Int64) (d : Dispatcher σ) (topic : String)
    (payload : List UInt8) : Dispatcher σ × Outcome :=
  match Inbound.read topic payload with
  | .error why => (d.counted true, .rejected why)
  | .ok m =>
    let (d, ack) := (d.counted false).take s now m
    (d, .taken ack)

end Dispatcher

/-! ## Rejections in the log -/

/-- The octets of a payload that the log shows. -/
def Rejection.shownOctets : Nat := 512

/-- the text of a rejection; an unknown last will is not logged -/
def Rejection.message? : Rejection → Option String
  | .malformed => some "malformed payload"
  | .envelope f => some ("invalid envelope: " ++ f.message)
  | .lastWill => none

def Rejection.shown (payload : List UInt8) : String :=
  if payload.length ≤ shownOctets then Text.Utf8.lossy payload
  else Text.Utf8.lossy (payload.take shownOctets) ++ "...(truncated)"

end DeviceHub
