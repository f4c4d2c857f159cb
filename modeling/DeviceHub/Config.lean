import DeviceHub.Backoff
import DeviceHub.Broker

/-!
# The configuration

* `Config`  the settings of the hub in six sections, each of which has a default.
-/

namespace DeviceHub

/-- the connection to the broker -/
structure Config.Mqtt where
  brokerUrl : String := "tcp://localhost:1883"
  clientId : String := "vexora-backend-dev"
  username : Option String := none
  password : Option String := none
  keepAliveSecs : UInt64 := 60
  cleanSession : Bool := true
deriving DecidableEq

/-- the throttle of telemetry -/
structure Config.Telemetry where
  minWriteMs : UInt64 := 0
  softCapacity : UInt64 := 100000
deriving DecidableEq

/-- the store of points -/
structure Config.Influx where
  url : String := "http://localhost:8086"
  token : Option String := none
  org : String := "vexora"
  bucket : String := "telemetry"
  writeTimeoutMs : UInt64 := 5000
  queueCapacity : UInt64 := 10000
  batchSize : UInt64 := 500
deriving DecidableEq

/-- the address of the HTTP service -/
structure Config.Http where
  addr : String := "0.0.0.0:8080"
deriving DecidableEq

/-- the time limits of commands -/
structure Config.Commands where
  defaultTimeoutMs : UInt64 := 10000
  publishTimeoutMs : UInt64 := 5000
deriving DecidableEq

/-- the delays between attempts to connect again -/
structure Config.Reconnect where
  initialMs : UInt64 := 1000
  maxMs : UInt64 := 30000
deriving DecidableEq

/-- the settings of the hub -/
structure Config where
  mqtt : Config.Mqtt := {}
  telemetry : Config.Telemetry := {}
  influx : Config.Influx := {}
  http : Config.Http := {}
  commands : Config.Commands := {}
  reconnect : Config.Reconnect := {}
deriving DecidableEq

namespace Config

/-- What stands for a secret. -/
def mask : String := "***"

/-- a user name of which only the first character shows -/
def maskedName (s : String) : String :=
  match s.toList with
  | [] => ""
  | c :: _ => String.ofList (c :: mask.toList)

/-- the settings of the broker with a user and a password -/
def Mqtt.withAuth (m : Mqtt) (user password : String) : Mqtt :=
  { m with username := some user, password := some password }

/-- Points are stored only when there is a token. -/
def Influx.isEnabled (i : Influx) : Bool := i.token.any fun t => !t.isEmpty

def Reconnect.bounds (r : Reconnect) : Backoff.Bounds := ⟨.ofMillis r.initialMs, .ofMillis r.maxMs⟩

def Mqtt.maskedUsername? (m : Mqtt) : Option String := m.username.map maskedName

/-- the configuration without its secrets -/
def redacted (c : Config) : Config :=
  { c with
    mqtt := { c.mqtt with
      username := c.mqtt.maskedUsername?
      password := c.mqtt.password.map fun _ => mask }
    influx := { c.influx with token := c.influx.token.map fun _ => mask } }

end Config

end DeviceHub
