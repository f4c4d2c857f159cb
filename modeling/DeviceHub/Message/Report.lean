import DeviceHub.Param

/-!
# What devices report

* `Telemetry`  metrics with their values;
* `Report`     the state of a device, of its link and of its configuration;
* `Event`      something that happened on a device.

Each of them shares its object with an envelope; the envelope's members are ignored here.
-/

namespace DeviceHub.Message

/-- one measured value -/
structure Metric where
  key : String := ""
  value : Float := 0.0
  unit : String := ""
deriving Inhabited

open Json in
/-- metrics as JSON; an empty unit is left out -/
def Metric.record : Record Metric where
  base := {}
  fields := [
    .plain "key" .text (·.key) (fun a m => { m with key := a }),
    .plain "value" .float (·.value) (fun a m => { m with value := a }),
    .omitted "unit" .text (·.unit) (fun a m => { m with unit := a }) String.isEmpty]

/-- measured values -/
structure Telemetry where
  seq : Option Int64 := none
  metrics : List Metric := []
  extra : Option Params := none
deriving Inhabited

open Json in
def Telemetry.record : Record Telemetry where
  base := {}
  fields := [
    .plain "seq" (.option .int64) (·.seq) (fun a t => { t with seq := a }),
    .plain "metrics" (.list Metric.record.codec) (·.metrics) (fun a t => { t with metrics := a }),
    .omitted "meta" (.option Params.codec) (·.extra) (fun a t => { t with extra := a }) Option.isNone]

/-- the network link of a device -/
structure Link where
  kind : String := ""
  rssi : Option Float := none
  ip : Option String := none
deriving Inhabited

open Json in
def Link.record : Record Link where
  base := {}
  fields := [
    .plain "type" .text (·.kind) (fun a l => { l with kind := a }),
    .plain "rssi" (.option .float) (·.rssi) (fun a l => { l with rssi := a }),
    .omitted "ip" (.option .text) (·.ip) (fun a l => { l with ip := a }) Option.isNone]

/-- the configuration versions of a device -/
structure Versions where
  active : Option Int64 := none
  pending : Option Int64 := none
deriving Inhabited

open Json in
def Versions.record : Record Versions where
  base := {}
  fields := [
    .plain "activeVersion" (.option .int64) (·.active) (fun a c => { c with active := a }),
    .plain "pendingVersion" (.option .int64) (·.pending) (fun a c => { c with pending := a })]

/-- the state of a device -/
structure Report where
  status : String := ""
  link : Option Link := none
  firmware : Option String := none
  uptime : Option Int64 := none
  versions : Option Versions := none
  extra : Option Params := none
deriving Inhabited

open Json in
def Report.record : Record Report where
  base := {}
  fields := [
    .plain "status" .text (·.status) (fun a s => { s with status := a }),
    .plain "link" (.option Link.record.codec) (·.link) (fun a s => { s with link := a }),
    .plain "fw" (.option .text) (·.firmware) (fun a s => { s with firmware := a }),
    .plain "uptimeSec" (.option .int64) (·.uptime) (fun a s => { s with uptime := a }),
    .plain "cfg" (.option Versions.record.codec) (·.versions) (fun a s => { s with versions := a }),
    .omitted "meta" (.option Params.codec) (·.extra) (fun a s => { s with extra := a }) Option.isNone]

/-- something that happened on a device -/
structure Event where
  code : String := ""
  severity : Option String := none
  msg : Option String := none
  data : Option Params := none
deriving Inhabited

open Json in
def Event.record : Record Event where
  base := {}
  fields := [
    .plain "code" .text (·.code) (fun a e => { e with code := a }),
    .plain "severity" (.option .text) (·.severity) (fun a e => { e with severity := a }),
    .plain "msg" (.option .text) (·.msg) (fun a e => { e with msg := a }),
    .plain "data" (.option Params.codec) (·.data) (fun a e => { e with data := a })]

end DeviceHub.Message
