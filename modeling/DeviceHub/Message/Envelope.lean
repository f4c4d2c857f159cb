import DeviceHub.Json.Record
import DeviceHub.Text.Blank

/-!
# The envelope of messages

* `Envelope`        the part that all messages of devices share: version, device and time;
* `Envelope.fault?` what makes an envelope invalid, the first of three checks that fails.
-/

namespace DeviceHub.Message

/-- protocol version, sending device and its time in milliseconds -/
structure Envelope where
  version : Int64 := 0
  device : String := ""
  ts : Int64 := 0
deriving DecidableEq, Inhabited

/-- why an envelope is invalid -/
inductive EnvelopeFault
  | version (v : Int64)
  | noDevice
  | time (ts : Int64)
deriving DecidableEq

def EnvelopeFault.message : EnvelopeFault → String
  | .version v => "invalid protocol version " ++ Decimal.integer v.toInt
  | .noDevice => "missing deviceId"
  | .time ts => "invalid timestamp " ++ Decimal.integer ts.toInt

namespace Envelope

open Json in
def record : Record Envelope where
  base := {}
  fields := [
    .plain "v" .int64 (·.version) (fun a e => { e with version := a }),
    .plain "deviceId" .text (·.device) (fun a e => { e with device := a }),
    .plain "ts" .int64 (·.ts) (fun a e => { e with ts := a })]

/-- The version is at least 1, the device is not blank, and the time is positive. -/
def fault? (e : Envelope) : Option EnvelopeFault :=
  if e.version < 1 then some (.version e.version)
  else if Text.isBlank e.device then some .noDevice
  else if e.ts ≤ 0 then some (.time e.ts)
  else none

end Envelope

end DeviceHub.Message
