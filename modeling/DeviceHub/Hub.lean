import DeviceHub.Command.Send
import DeviceHub.Connection.Manager
import DeviceHub.Dispatcher
import DeviceHub.Service

/-!
# The hub

* `Hub`           the connection, the pending commands and the dispatcher over one sink;
* `Hub.assemble`  the hub of a configuration;
* `Hub.onMessage` a message of the broker: the dispatcher takes it in, and an acknowledgement goes to
                  the pending commands;
* `Hub.view`, `Hub.bareView`  what requests to the service can see.
-/

namespace DeviceHub

/-- the parts of the hub, and the time limit of commands that give none -/
structure Hub (σ : Type) where
  connection : Connection
  pending : Command.Pending := {}
  dispatcher : Dispatcher σ
  limit : Duration

namespace Hub

variable {σ : Type}

def throttle (c : Config.Telemetry) : Throttle :=
  (Throttle.new c.minWriteMs.toNat).withCapacity c.softCapacity.toNat

def assemble (c : Config) (sink : σ) : Hub σ where
  connection := { options := .ofConfig c }
  dispatcher := { sink := sink, throttle := throttle c.telemetry }
  limit := Command.limitOfConfig c.commands

/-- an acknowledgement for the pending commands -/
def acknowledge (h : Hub σ) (a : Message.Ack) : Hub σ :=
  { h with pending := h.pending.acknowledge a }

def onMessage (s : Sink σ) (now : Int64) (h : Hub σ) (topic : String) (payload : List UInt8) :
    Hub σ × Dispatcher.Outcome :=
  let (d, outcome) := h.dispatcher.onMessage s now topic payload
  let h := { h with dispatcher := d }
  match outcome with
  | .taken (some a) => (h.acknowledge a, outcome)
  | _ => (h, outcome)

/-- what requests can see of the hub after it has run for some seconds -/
def view (h : Hub σ) (uptimeSecs : Nat) : Service.View where
  status := h.connection.status
  uptimeSecs := uptimeSecs
  pending := h.pending.count
  stats := some h.dispatcher.stats
  registry := h.dispatcher.registry

/-- what requests can see when the service knows of no connection and no dispatcher -/
def bareView (h : Hub σ) (uptimeSecs : Nat) : Service.View :=
  { h.view uptimeSecs with status := .disconnected, stats := none }

end Hub

end DeviceHub
