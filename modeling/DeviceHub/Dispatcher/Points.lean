import DeviceHub.Message.Envelope
import DeviceHub.Message.Report
import DeviceHub.Point

/-!
# The points of messages

* `metricPoint`  the point of a measured value;
* `statePoint`   the point of a reported state;
* `eventPoint`   the point of an event.

Texts that are empty make no tags and fields.  A state or an event without any field has the
sentinel field `seen`, so that every point has a field.
-/

namespace DeviceHub

open Message

/-- the point with the field `seen` if it has no other -/
def Point.withSentinel (p : Point) : Point :=
  if p.fields.isEmpty then p.field "seen" (.int 1) else p

def nonEmpty? (s : Option String) : Option String := s.filter fun t => !t.isEmpty

/-- the point of a measured value under its trimmed key -/
def metricPoint (e : Envelope) (key : String) (m : Metric) : Point :=
  (((Point.new "telemetry" e.ts).tag "deviceId" e.device).tag "metric" key).field "value"
    (.float m.value) |>.tagUnlessEmpty "unit" (some m.unit)

def statePoint (e : Envelope) (r : Report) : Point :=
  ((Point.new "state" e.ts).tag "deviceId" e.device)
    |>.tagUnlessEmpty "status" (some r.status)
    |>.tagUnlessEmpty "link" (r.link.map (·.kind))
    |>.fieldIfSome "rssi" ((r.link.bind (·.rssi)).map .float)
    |>.fieldIfSome "ip" ((nonEmpty? (r.link.bind (·.ip))).map .text)
    |>.fieldIfSome "fw" ((nonEmpty? r.firmware).map .text)
    |>.fieldIfSome "uptimeSec" (r.uptime.map .int)
    |>.fieldIfSome "cfgActiveVersion" ((r.versions.bind (·.active)).map .int)
    |>.fieldIfSome "cfgPendingVersion" ((r.versions.bind (·.pending)).map .int)
    |>.withSentinel

/-- the point of an event, with its data as JSON -/
def eventPoint (e : Envelope) (ev : Event) : Point :=
  ((Point.new "event" e.ts).tag "deviceId" e.device)
    |>.tagUnlessEmpty "code" (some ev.code)
    |>.tagUnlessEmpty "severity" ev.severity
    |>.fieldIfSome "msg" ((nonEmpty? ev.msg).map .text)
    |>.fieldIfSome "data"
      ((ev.data.filter fun d => !d.isEmpty).map fun d => .text (Params.codec.encode d))
    |>.withSentinel

end DeviceHub
