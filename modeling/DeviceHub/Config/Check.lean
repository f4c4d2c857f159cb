import DeviceHub.Config
import DeviceHub.SocketAddress

/-!
# Valid configurations

* `ConfigError`           why a configuration cannot be used;
* `Config.broker`, `Config.address`  the addresses that the configuration spells;
* `Config.fault?`         the first of five checks that fails.
-/

namespace DeviceHub

/-- why a configuration cannot be used -/
inductive ConfigError
  | unreadable (path : String)
  | notToml
  | brokerUrl (url : String)
  | noClientId
  | noInitialDelay
  | delaysReversed
  | address (addr : String)
deriving DecidableEq

/-- the text of an error; the first two leave out what the system or the reader would add -/
def ConfigError.message : ConfigError → String
  | .unreadable path => "failed to read config file " ++ path
  | .notToml => "failed to parse config"
  | .brokerUrl url => "invalid broker url '" ++ url ++ "'"
  | .noClientId => "invalid config: mqtt.client_id is empty"
  | .noInitialDelay => "invalid config: reconnect.initial_ms must be positive"
  | .delaysReversed => "invalid config: reconnect.max_ms must not be below reconnect.initial_ms"
  | .address addr => "invalid config: http.addr '" ++ addr ++ "' is not a socket address"

namespace Config

def Mqtt.broker (m : Mqtt) : Except ConfigError Broker.Address :=
  match Broker.Address.ofUrl? m.brokerUrl with
  | some a => .ok a
  | none => .error (.brokerUrl m.brokerUrl)

/-- the address of the HTTP service; a port alone listens on all interfaces -/
def address (c : Config) : Except ConfigError SocketAddress :=
  let cs := Text.trimChars c.http.addr.toList
  let full := if cs.head? = some ':' then "0.0.0.0".toList ++ cs else cs
  match SocketAddress.ofText? (String.ofList full) with
  | some a => .ok a
  | none => .error (.address c.http.addr)

/-- the first check that fails -/
def fault? (c : Config) : Option ConfigError :=
  match c.mqtt.broker with
  | .error e => some e
  | .ok _ =>
    if Text.isBlank c.mqtt.clientId then some .noClientId
    else if c.reconnect.initialMs = 0 then some .noInitialDelay
    else if c.reconnect.maxMs < c.reconnect.initialMs then some .delaysReversed
    else
      match c.address with
      | .error e => some e
      | .ok _ => none

end Config

end DeviceHub
