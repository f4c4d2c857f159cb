import DeviceHub.Command.Pending
import DeviceHub.Connection.Basic

/-!
# Sending a command

* `Command.Error`     why a send fails;
* `Request.launch`    a request checked and made a command;
* `Send`              a send that was registered and has not ended;
* `Send.published`, `Send.race`  what happens to it: the end of its publish call, and the race
                      between cancellation, acknowledgement and time limit.

A send that is registered has a slot among the pending commands until it ends.
-/

namespace DeviceHub.Command

open Message (Ack Command)

/-- why a send fails -/
inductive Error
  | invalidRequest (msg : String)
  | notConnected
  | publishFailed (msg : String)
  | timeout (ack : Ack) (limit : Duration)
  | invalidAck
  | cancelled

namespace Error

def message : Error → String
  | .invalidRequest msg => "invalid command request: " ++ msg
  | .notConnected => "not connected to broker"
  | .publishFailed msg => "failed to publish command: " ++ msg
  | .timeout _ limit => "command timed out after " ++ Decimal.natural limit.millis ++ " ms"
  | .invalidAck => "invalid acknowledgement: missing id or deviceId"
  | .cancelled => "command cancelled"

def ofPublish : PublishError → Error
  | .notConnected => .notConnected
  | .failed msg => .publishFailed msg

end Error

/-- what is to be sent, and how long to wait for the acknowledgement -/
structure Request where
  device : String
  kind : String
  params : Params
  limit : Duration

/-- The time limit that stands for a default of zero. -/
def defaultLimit : Duration := .ofMillis 10000

/-- the time limit for requests that give none -/
def limitOfConfig (c : Config.Commands) : Duration :=
  if c.defaultTimeoutMs = 0 then defaultLimit else .ofMillis c.defaultTimeoutMs

/-- a send that was registered and has not ended -/
structure Send where
  id : String
  device : String
  limit : Duration

/-- the command of a request and its send; device and kind are trimmed and must not be blank -/
def Request.launch (r : Request) (default_ : Duration) (id : String) (now : Int64) :
    Except Error (Send × Command) :=
  let device := Text.trim r.device
  let kind := Text.trim r.kind
  if device = "" then .error (.invalidRequest "deviceId is required")
  else if kind = "" then .error (.invalidRequest "type is required")
  else
    -- a limit of zero stands for the default
    let limit := if r.limit.isZero then default_ else r.limit
    .ok (⟨id, device, limit⟩,
      { version := Message.protocolVersion, id := id, device := device, ts := now, kind := kind
        params := r.params })

/-- the message that carries a command: to its device, at least once, not retained -/
def publication (c : Command) : Publication where
  topic := Topic.command c.device
  qos := .atLeastOnce
  retain := false
  payload := Text.Utf8.encode (Command.record.codec.encode c)

namespace Send

/-- The result of a send whose publish call ended: an error at once, else none yet. -/
def published : Except PublishError Unit → Option (Except Error Ack)
  | .ok () => none
  | .error e => some (.error (.ofPublish e))

def acknowledged (a : Ack) : Except Error Ack :=
  if a.isIdentified then .ok a else .error .invalidAck

/-- the result of a send whose command was published -/
def race (s : Send) (cancelled : Bool) (received : Option Ack) (expired : Bool) (now : Int64) :
    Option (Except Error Ack) :=
  -- cancellation counts first
  if cancelled then some (.error .cancelled)
  else
    match received with
    | some a => some (acknowledged a)
    | none =>
      -- and the time limit last
      if expired then some (.error (.timeout (Ack.timeout s.id s.device now) s.limit)) else none

end Send

end DeviceHub.Command
