import DeviceHub.Config
import DeviceHub.Json.Codec
import DeviceHub.Topic

/-!
# The connection to the broker: words

* `Qos`                how surely a message is delivered;
* `Connection.Status`  the states of the connection;
* `LinkEvent`, `TransportError`  what a poll of the broker's link yields;
* `PublishError`       why a message was not handed over;
* `Connection.Options` what a connection is told at its start.
-/

namespace DeviceHub

/-- how surely a message is delivered -/
inductive Qos
  | atMostOnce
  | atLeastOnce
  | exactlyOnce
deriving DecidableEq, Repr

namespace Qos

def name : Qos → String
  | .atMostOnce => "AtMostOnce"
  | .atLeastOnce => "AtLeastOnce"
  | .exactlyOnce => "ExactlyOnce"

def number : Qos → Nat
  | .atMostOnce => 0
  | .atLeastOnce => 1
  | .exactlyOnce => 2

def all : List Qos := [.atMostOnce, .atLeastOnce, .exactlyOnce]

def codec : Json.Codec Qos := .choice name all

end Qos

namespace Connection

/-- the states of the connection -/
inductive Status
  | disconnected
  | connecting
  | connected
  | reconnecting
deriving DecidableEq, Repr

namespace Status

def name : Status → String
  | .disconnected => "disconnected"
  | .connecting => "connecting"
  | .connected => "connected"
  | .reconnecting => "reconnecting"

def all : List Status := [.disconnected, .connecting, .connected, .reconnecting]

def codec : Json.Codec Status := .choice name all

end Status

/-- what a connection is told at its start -/
structure Options where
  backoff : Backoff.Bounds := {}
  subscriptions : List String := Topic.subscriptions
  subscribeQos : Qos := .atLeastOnce
  publishLimit : Duration := .ofMillis 5000

def Options.ofConfig (c : Config) : Options :=
  { backoff := c.reconnect.bounds, publishLimit := .ofMillis c.commands.publishTimeoutMs }

end Connection

/-- what the broker's link reports -/
inductive LinkEvent
  | connAck
  | publish (topic : String) (payload : List UInt8)
  | other
deriving DecidableEq

/-- why the transport fails -/
inductive TransportError
  | connection (msg : String)
  | subscribe (msg : String)
  | publish (msg : String)
  | alreadyStarted
deriving DecidableEq

def TransportError.message : TransportError → String
  | .connection msg => "connection error: " ++ msg
  | .subscribe msg => "subscribe failed: " ++ msg
  | .publish msg => "publish failed: " ++ msg
  | .alreadyStarted => "connection manager already started"

/-- what a poll of the link yields -/
abbrev Polled := Except TransportError LinkEvent

/-- why a message was not handed over -/
inductive PublishError
  | notConnected
  | failed (msg : String)
deriving DecidableEq

def PublishError.message : PublishError → String
  | .notConnected => "not connected to broker"
  | .failed msg => "publish failed: " ++ msg

/-- the result of a publish call that the client ended -/
def PublishError.ofClient : Except TransportError Unit → Except PublishError Unit
  | .ok () => .ok ()
  | .error e => .error (.failed e.message)

/-- a message for the broker -/
structure Publication where
  topic : String
  qos : Qos
  retain : Bool
  payload : List UInt8

end DeviceHub
