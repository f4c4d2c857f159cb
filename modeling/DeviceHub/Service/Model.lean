import DeviceHub.Connection.Basic
import DeviceHub.Dispatcher
import DeviceHub.Message.Command

/-!
# What the service shows and takes

* `DeviceSummary`, `deviceDetail`  a device in the list, and by itself;
* `health`                         the state of the hub;
* `CommandBody`                    the body of a request to send a command.
-/

namespace DeviceHub.Service

open Json Message

/-- a device in the list; the time is in seconds -/
structure DeviceSummary where
  device : String
  status : String
  lastSeen : Int64
  firmware : Option String

/-- summaries as JSON; only an object may leave out the firmware -/
def DeviceSummary.record : Record DeviceSummary where
  base := ⟨"", "", 0, none⟩
  fields := [
    (Field.plain "deviceId" .text (·.device) (fun a d => { d with device := a })).required,
    (Field.plain "status" .text (·.status) (fun a d => { d with status := a })).required,
    (Field.plain "lastSeen" .int64 (·.lastSeen) (fun a d => { d with lastSeen := a })).required,
    (Field.plain "fwVersion" (.option .text) (·.firmware)
      (fun a d => { d with firmware := a })).withMissing .inObjects]

/-- The summary of an entry.  A device that reported no state is offline. -/
def DeviceSummary.ofEntry (e : Registry.Entry) : DeviceSummary where
  device := e.device
  status := (nonEmpty? e.status).getD "offline"
  lastSeen := Int64.ofInt (e.lastSeen.toInt / 1000)
  firmware := nonEmpty? e.firmware

/-- the reported state in the detail of an entry -/
def stateDoc (e : Registry.Entry) : Doc :=
  match e.lastReport with
  | none => .null
  | some _ =>
    .record [
      ("uptime", .int (e.uptime.getD 0).toInt),
      ("link", .text (e.link.getD "")),
      ("ip", .text (e.ip.getD ""))]

def summaryDoc (e : Registry.Entry) : Doc :=
  DeviceSummary.record.codec.write (.ofEntry e)

/-- an entry with its state and its last measured values, as JSON -/
def deviceDetail (e : Registry.Entry) : Doc :=
  .record [
    ("device", summaryDoc e),
    ("state", stateDoc e),
    ("lastTelemetry", (e.lastTelemetry.map Registry.Snapshot.write).getD .null)]

def deviceList (r : Registry) : Doc := .array (r.list.map summaryDoc)

def version : String := "0.3.0"

/-- the state of the hub, with the counters of the dispatcher if there is one -/
def health (status : Connection.Status) (uptimeSecs pending : Nat) (stats : Option Stats) : Doc :=
  .record ([
    ("status", .text "ok"),
    ("version", .text version),
    ("mqtt", .text status.name),
    ("uptimeSecs", .int uptimeSecs),
    ("pendingCommands", .int pending)] ++
    match stats with
    | some s => [("dispatch", s.write)]
    | none => [])

/-- the body of a request to send a command -/
structure CommandBody where
  kind : String := ""
  params : Params := []
  timeoutMs : Option Int64 := none

def CommandBody.record : Record CommandBody where
  base := {}
  fields := [
    .plain "type" .text (·.kind) (fun a b => { b with kind := a }),
    .plain "params" Params.codec (·.params) (fun a b => { b with params := a }),
    .plain "timeoutMs" (.option .int64) (·.timeoutMs) (fun a b => { b with timeoutMs := a })]

/-- the time limit of a body: zero, negative and missing ones select the default -/
def CommandBody.limit (b : CommandBody) : Duration :=
  match b.timeoutMs with
  | some ms => if 0 < ms then .ofMillis (UInt64.ofNat ms.toInt.toNat) else .ofMillis 0
  | none => .ofMillis 0

/-- the response to a send that was acknowledged -/
def ackDoc (a : Ack) : Doc := .record [("ack", Ack.record.codec.write a)]

end DeviceHub.Service
