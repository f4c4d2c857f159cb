import DeviceHub.Config.Check
import DeviceHub.Config.Setting

/-!
# Loading a configuration

* `Environment`          the variables of a process;
* `Config.withEnvironment`  the configuration with ten variables taken over;
* `Config.load`          defaults, file and environment in this order, checked at the end.

A variable that is blank counts as missing.  The others are taken as they are, except the number,
which may have blanks around it and is ignored when it is no 63-bit number.
-/

namespace DeviceHub

/-- the variables of a process -/
abbrev Environment := String → Option String

/-- a variable that is not blank -/
def Environment.get? (env : Environment) (name : String) : Option String :=
  (env name).filter fun v => !Text.isBlank v

def millis? (v : String) : Option UInt64 := do
  let i ← Decimal.signed? (Text.trimChars v.toList)
  if 0 ≤ i ∧ i < 0x8000000000000000 then some (UInt64.ofNat i.toNat) else none

namespace Config

def Mqtt.withEnvironment (m : Mqtt) (env : Environment) : Mqtt :=
  { m with
    brokerUrl := (env.get? "MQTT_BROKER_URL").getD m.brokerUrl
    clientId := (env.get? "MQTT_CLIENT_ID").getD m.clientId
    username := env.get? "MQTT_USERNAME" <|> m.username
    password := env.get? "MQTT_PASSWORD" <|> m.password }

def Telemetry.withEnvironment (t : Telemetry) (env : Environment) : Telemetry :=
  { t with
    minWriteMs := ((env.get? "TELEMETRY_MIN_WRITE_MS").bind millis?).getD t.minWriteMs }

def Influx.withEnvironment (i : Influx) (env : Environment) : Influx :=
  { i with
    url := (env.get? "INFLUX_URL").getD i.url
    token := env.get? "INFLUX_TOKEN" <|> i.token
    org := (env.get? "INFLUX_ORG").getD i.org
    bucket := (env.get? "INFLUX_BUCKET").getD i.bucket }

def Http.withEnvironment (h : Http) (env : Environment) : Http :=
  { h with addr := (env.get? "HTTP_ADDR").getD h.addr }

def withEnvironment (c : Config) (env : Environment) : Config :=
  { c with
    mqtt := c.mqtt.withEnvironment env
    telemetry := c.telemetry.withEnvironment env
    influx := c.influx.withEnvironment env
    http := c.http.withEnvironment env }

/-- a configuration file: its path, and its octets if it can be read -/
structure File where
  path : String
  octets : Option (List UInt8)

def ofFile (f : File) : Except ConfigError Config :=
  match f.octets.bind Text.Utf8.text? with
  | none => .error (.unreadable f.path)
  | some s =>
    match ofToml? s with
    | none => .error .notToml
    | some c => .ok c

/-- the checked configuration of a file, if one is given, and the environment -/
def load (file : Option File) (env : Environment) : Except ConfigError Config := do
  let c ← match file with
    | some f => ofFile f
    | none => .ok {}
  let c := c.withEnvironment env
  match c.fault? with
  | some e => .error e
  | none => .ok c

end Config

end DeviceHub
