import DeviceHub.Config.Check

/-!
# Logging in to the broker

* `Broker.Login`        what is told to the broker when a connection is made;
* `Config.Mqtt.login`   the login that the settings ask for.

A client without a name cannot ask the broker to keep its session.
-/

namespace DeviceHub

/-- what is told to the broker when a connection is made -/
structure Broker.Login where
  address : Broker.Address
  clientId : String
  keepAliveSecs : UInt64
  cleanSession : Bool
  maxPacketSize : Nat
  credentials : Option (String × String)

/-- why there is no login -/
inductive Broker.LoginError
  | config (e : ConfigError)
  | namelessSession

def Broker.minKeepAliveSecs : UInt64 := 5

/-- The largest packet, in octets. -/
def Broker.maxPacketSize : Nat := 1024 * 1024

/-- the login of settings; a user without a password has an empty one -/
def Config.Mqtt.login (m : Config.Mqtt) : Except Broker.LoginError Broker.Login :=
  match m.broker with
  | .error e => .error (.config e)
  | .ok address =>
    if m.clientId = "" ∧ m.cleanSession = false then .error .namelessSession
    else .ok {
      address := address
      clientId := m.clientId
      keepAliveSecs := max m.keepAliveSecs Broker.minKeepAliveSecs
      cleanSession := m.cleanSession
      maxPacketSize := Broker.maxPacketSize
      credentials := m.username.map fun user => (user, m.password.getD "") }

end DeviceHub
