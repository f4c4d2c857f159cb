import DeviceHub.Cli

/-!
# The program's entry

The arguments, the environment and the configuration file are read here, and the exit is reported.
There is no transport to a broker, so that every attempt to connect fails.
-/

namespace DeviceHub

/-- The variables that a configuration takes over. -/
def configVariables : List String :=
  ["MQTT_BROKER_URL", "MQTT_CLIENT_ID", "MQTT_USERNAME", "MQTT_PASSWORD",
    "TELEMETRY_MIN_WRITE_MS", "INFLUX_URL", "INFLUX_TOKEN", "INFLUX_ORG", "INFLUX_BUCKET",
    "HTTP_ADDR"]

/-- the environment of the process, as far as a configuration takes it over -/
def processEnvironment : IO Environment := do
  let values ← configVariables.mapM fun name => do return (name, ← IO.getEnv name)
  return fun name => (values.lookup name).join

/-- the octets of a file, if it can be read -/
def readOctets (path : String) : IO (Option (List UInt8)) := do
  match ← (IO.FS.readBinFile path).toBaseIO with
  | .ok bytes => return some bytes.toList
  | .error _ => return none

end DeviceHub

open DeviceHub in
def main (args : List String) : IO UInt32 := do
  let file ←
    match Cli.Request.ofArgs args with
    | .run i =>
      match i.config with
      | some path => readOctets path
      | none => pure none
    | _ => pure none
  let exit := Cli.run args (fun _ => file) (← processEnvironment) (toString (← IO.monoNanosNow))
  IO.print exit.output
  match exit.error with
  | some message => IO.eprintln ("Error: " ++ message)
  | none => pure ()
  return exit.code.toUInt32
