import DeviceHub.Param

/-!
# Commands and their acknowledgements

* `Command`                 what a device is told to do;
* `Ack`                     what a device answers;
* `Ack.timeout`             the answer that stands for a missing one;
* `Ack.isIdentified`        whether an answer names a command and a device.
-/

namespace DeviceHub.Message

/-- The version of the messages that are sent. -/
def protocolVersion : Int64 := 1

/-- a command to a device -/
structure Command where
  version : Int64
  id : String
  device : String
  ts : Int64
  kind : String
  params : Params
deriving Inhabited

open Json in
/-- commands as JSON; only the parameters may be missing -/
def Command.record : Record Command where
  base := ⟨0, "", "", 0, "", []⟩
  fields := [
    (Field.plain "v" .int64 (·.version) (fun a c => { c with version := a })).required,
    (Field.plain "id" .text (·.id) (fun a c => { c with id := a })).required,
    (Field.plain "deviceId" .text (·.device) (fun a c => { c with device := a })).required,
    (Field.plain "ts" .int64 (·.ts) (fun a c => { c with ts := a })).required,
    (Field.plain "type" .text (·.kind) (fun a c => { c with kind := a })).required,
    .omitted "params" Params.codec (·.params) (fun a c => { c with params := a }) List.isEmpty]

/-- an acknowledgement of a command -/
structure Ack where
  version : Int64 := 0
  id : String := ""
  device : String := ""
  ts : Int64 := 0
  ok : Bool := false
  code : Option String := none
  msg : Option String := none
  data : Option Params := none
deriving Inhabited

namespace Ack

open Json in
/-- acknowledgements as JSON; code, message and data are left out when there are none -/
def record : Record Ack where
  base := {}
  fields := [
    .plain "v" .int64 (·.version) (fun a c => { c with version := a }),
    .plain "id" .text (·.id) (fun a c => { c with id := a }),
    .plain "deviceId" .text (·.device) (fun a c => { c with device := a }),
    .plain "ts" .int64 (·.ts) (fun a c => { c with ts := a }),
    .plain "ok" .bool (·.ok) (fun a c => { c with ok := a }),
    .omitted "code" (.option .text) (·.code) (fun a c => { c with code := a }) Option.isNone,
    .omitted "msg" (.option .text) (·.msg) (fun a c => { c with msg := a }) Option.isNone,
    .omitted "data" (.option Params.codec) (·.data) (fun a c => { c with data := a }) Option.isNone]

/-- The code of the answer that stands for a missing one. -/
def timeoutCode : String := "TIMEOUT"

/-- the answer that stands for a missing one -/
def timeout (id device : String) (ts : Int64) : Ack where
  version := protocolVersion
  id := id
  device := device
  ts := ts
  code := some timeoutCode
  msg := some "ACK timeout"

/-- An answer counts only when it names both the command and the device. -/
def isIdentified (a : Ack) : Bool := a.id ≠ "" && a.device ≠ ""

end Ack

end DeviceHub.Message
