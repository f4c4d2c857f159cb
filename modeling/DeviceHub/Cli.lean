import DeviceHub.Cli.Invocation
import DeviceHub.Config.Load
import DeviceHub.Service.Model

/-!
# The program

* `Cli.Exit`     what the program prints and its exit code;
* `Cli.Plan`     what an invocation comes to before the broker is reached;
* `Cli.plan`     the plan of an invocation, its configuration file and the environment;
* `Cli.unreached`  the exit when the broker cannot be reached.
-/

namespace DeviceHub.Cli

/-- what the program prints to its output, the error it reports, and its exit code -/
structure Exit where
  code : UInt8
  output : String := ""
  error : Option String := none
deriving DecidableEq

def Exit.failed (message : String) : Exit := { code := 1, error := some message }

/-- the exit when the arguments are not in order -/
def Exit.usage : Exit := { code := 2 }

def programName : String := "vexora"

def Exit.version : Exit := { code := 0, output := programName ++ " " ++ Service.version ++ "\n" }

/-- what is to be done once the configuration stands -/
inductive Plan
  | exit (e : Exit)
  /-- run the hub on an address -/
  | serve (c : Config) (addr : SocketAddress)
  /-- send one command -/
  | send (c : Config) (device kind : String) (params : Params) (timeoutMs : UInt64)

/-- the configuration for a client of its own, told apart by a tag -/
def oneShot (c : Config) (tag : String) : Config :=
  { c with mqtt := { c.mqtt with clientId := c.mqtt.clientId ++ "-cli-" ++ tag } }

def params? : Option String → Option Params
  | none => some []
  | some s => (Params.codec.decodeText s).toOption

/-- the plan of an invocation; `file` is the configuration file that it names -/
def plan (i : Invocation) (file : Option Config.File) (env : Environment) (tag : String) : Plan :=
  let withConfig (use : Config → Plan) : Plan :=
    match Config.load file env with
    | .ok c => use c
    | .error _ => .exit (.failed "failed to load configuration")
  match i.action with
  | .showConfig => withConfig fun c =>
    match c.redacted.toml? with
    | some s => .exit { code := 0, output := s }
    | none => .exit (.failed "failed to serialize config")
  | .serve addr => withConfig fun c =>
    let c := { c with http := ⟨addr.getD c.http.addr⟩ }
    match c.address with
    | .ok a => .serve c a
    | .error e => .exit (.failed e.message)
  | .send device kind params timeoutMs =>
    match params? params with
    | none => .exit (.failed "--params must be a JSON object")
    | some params => withConfig fun c => .send (oneShot c tag) device kind params timeoutMs

/-- the exit of a plan when the broker cannot be reached -/
def unreached : Plan → Exit
  | .exit e => e
  | .serve .. => .failed "initial broker connection failed"
  | .send .. => .failed "failed to connect to broker"

/-- the exit of the program when the broker cannot be reached; `file` yields the octets of a file -/
def run (args : List String) (file : String → Option (List UInt8)) (env : Environment)
    (tag : String) : Exit :=
  match Request.ofArgs args with
  | .usage => .usage
  | .version => .version
  | .run i => unreached (plan i (i.config.map fun path => ⟨path, file path⟩) env tag)

end DeviceHub.Cli
