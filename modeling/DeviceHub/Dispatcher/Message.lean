import DeviceHub.Message.Command
import DeviceHub.Message.Envelope
import DeviceHub.Message.Report
import DeviceHub.Topic

/-!
# What a message says

* `Inbound`        the meaning of a message, by the kind of its topic;
* `Inbound.read`   the meaning of a topic and a payload, or why there is none.

The payload of a last will is a plain word.  All others are JSON: first the envelope is read and
checked, then, from the same octets, the part that belongs to the kind.
-/

namespace DeviceHub

open Message

/-- why a message is rejected -/
inductive Rejection
  | malformed
  | envelope (f : EnvelopeFault)
  | lastWill
deriving DecidableEq

/-- the meaning of a message -/
inductive Inbound
  | telemetry (e : Envelope) (t : Telemetry)
  | state (e : Envelope) (r : Report)
  | event (e : Envelope) (ev : Event)
  | ack (e : Envelope) (a : Ack)
  | configStatus (e : Envelope)
  | other (e : Envelope)
  | lastWill (device : String) (online : Bool)

namespace Inbound

def decode {α : Type} (r : Json.Record α) (payload : List UInt8) : Except Rejection α :=
  match r.codec.decode payload with
  | .ok a => .ok a
  | .error _ => .error .malformed

/-- the checked envelope of a payload -/
def readEnvelope (payload : List UInt8) : Except Rejection Envelope :=
  match decode Envelope.record payload with
  | .error r => .error r
  | .ok e =>
    match e.fault? with
    | some f => .error (.envelope f)
    | none => .ok e

/-- the last will of a device: one of two words, with blanks around it -/
def readLastWill (topic : String) (payload : List UInt8) : Except Rejection Inbound :=
  match Topic.device? topic with
  | none => .error .lastWill
  | some device =>
    let word := Text.trim (Text.Utf8.lossy payload)
    if word = "offline" then .ok (.lastWill device false)
    else if word = "online" then .ok (.lastWill device true)
    else .error .lastWill

def read (topic : String) (payload : List UInt8) : Except Rejection Inbound :=
  let withEnvelope (body : Envelope → Except Rejection Inbound) : Except Rejection Inbound :=
    (readEnvelope payload).bind body
  match Topic.Kind.ofTopic topic with
  | .lastWill => readLastWill topic payload
  | .telemetry => withEnvelope fun e => (decode Telemetry.record payload).map (.telemetry e)
  | .state => withEnvelope fun e => (decode Report.record payload).map (.state e)
  | .event => withEnvelope fun e => (decode Event.record payload).map (.event e)
  | .ack => withEnvelope fun e => (decode Ack.record payload).map (.ack e)
  | .configStatus => withEnvelope fun e => .ok (.configStatus e)
  | .other => withEnvelope fun e => .ok (.other e)

end Inbound

end DeviceHub
