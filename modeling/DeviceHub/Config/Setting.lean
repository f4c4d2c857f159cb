import DeviceHub.Config
import DeviceHub.Json.Record
import DeviceHub.Toml.Document

/-!
# Settings and their written forms

* `Setting`          a named part of the configuration with its kind;
* `Config.sections`  all settings, section by section;
* `Config.codec`     the configuration as JSON;
* `Config.ofToml?`   the configuration of a TOML document;
* `Config.toml?`     the TOML document of a configuration.

All written forms follow the one table of sections.  In each of them a missing setting keeps its
default, unknown keys are ignored, and a section may be an array of its settings in their order.
-/

namespace DeviceHub

/-- how a setting is read from a configuration and put into it, by its kind -/
inductive Access
  | text (get : Config → String) (set : String → Config → Config)
  | optional (get : Config → Option String) (set : Option String → Config → Config)
  | number (get : Config → UInt64) (set : UInt64 → Config → Config)
  | flag (get : Config → Bool) (set : Bool → Config → Config)

/-- a named part of the configuration -/
structure Setting where
  name : String
  access : Access

namespace Config

def mqttSettings : List Setting := [
  ⟨"broker_url", .text (·.mqtt.brokerUrl)
    fun a c => { c with mqtt := { c.mqtt with brokerUrl := a } }⟩,
  ⟨"client_id", .text (·.mqtt.clientId)
    fun a c => { c with mqtt := { c.mqtt with clientId := a } }⟩,
  ⟨"username", .optional (·.mqtt.username)
    fun a c => { c with mqtt := { c.mqtt with username := a } }⟩,
  ⟨"password", .optional (·.mqtt.password)
    fun a c => { c with mqtt := { c.mqtt with password := a } }⟩,
  ⟨"keep_alive_secs", .number (·.mqtt.keepAliveSecs)
    fun a c => { c with mqtt := { c.mqtt with keepAliveSecs := a } }⟩,
  ⟨"clean_session", .flag (·.mqtt.cleanSession)
    fun a c => { c with mqtt := { c.mqtt with cleanSession := a } }⟩]

def telemetrySettings : List Setting := [
  ⟨"min_write_ms", .number (·.telemetry.minWriteMs)
    fun a c => { c with telemetry := { c.telemetry with minWriteMs := a } }⟩,
  ⟨"soft_capacity", .number (·.telemetry.softCapacity)
    fun a c => { c with telemetry := { c.telemetry with softCapacity := a } }⟩]

def influxSettings : List Setting := [
  ⟨"url", .text (·.influx.url) fun a c => { c with influx := { c.influx with url := a } }⟩,
  ⟨"token", .optional (·.influx.token)
    fun a c => { c with influx := { c.influx with token := a } }⟩,
  ⟨"org", .text (·.influx.org) fun a c => { c with influx := { c.influx with org := a } }⟩,
  ⟨"bucket", .text (·.influx.bucket)
    fun a c => { c with influx := { c.influx with bucket := a } }⟩,
  ⟨"write_timeout_ms", .number (·.influx.writeTimeoutMs)
    fun a c => { c with influx := { c.influx with writeTimeoutMs := a } }⟩,
  ⟨"queue_capacity", .number (·.influx.queueCapacity)
    fun a c => { c with influx := { c.influx with queueCapacity := a } }⟩,
  ⟨"batch_size", .number (·.influx.batchSize)
    fun a c => { c with influx := { c.influx with batchSize := a } }⟩]

def httpSettings : List Setting := [
  ⟨"addr", .text (·.http.addr) fun a c => { c with http := { c.http with addr := a } }⟩]

def commandSettings : List Setting := [
  ⟨"default_timeout_ms", .number (·.commands.defaultTimeoutMs)
    fun a c => { c with commands := { c.commands with defaultTimeoutMs := a } }⟩,
  ⟨"publish_timeout_ms", .number (·.commands.publishTimeoutMs)
    fun a c => { c with commands := { c.commands with publishTimeoutMs := a } }⟩]

def reconnectSettings : List Setting := [
  ⟨"initial_ms", .number (·.reconnect.initialMs)
    fun a c => { c with reconnect := { c.reconnect with initialMs := a } }⟩,
  ⟨"max_ms", .number (·.reconnect.maxMs)
    fun a c => { c with reconnect := { c.reconnect with maxMs := a } }⟩]

/-- The sections with their settings, in the order in which they are written. -/
def sections : List (String × List Setting) := [
  ("mqtt", mqttSettings),
  ("telemetry", telemetrySettings),
  ("influx", influxSettings),
  ("http", httpSettings),
  ("commands", commandSettings),
  ("reconnect", reconnectSettings)]

end Config

/-! ## JSON -/

open Json in
/-- a setting as a field of its section; an optional one without a value is left out -/
def Setting.field (s : Setting) : Json.Field Config :=
  match s.access with
  | .text get set => .plain s.name .text get set
  | .optional get set => .omitted s.name (.option .text) get set Option.isNone
  | .number get set => .plain s.name .uint64 get set
  | .flag get set => .plain s.name .bool get set

namespace Config

open Json in
def sectionField (s : String × List Setting) : Json.Field Config where
  name := s.1
  missing := .anywhere
  read room d c := (⟨c, s.2.map Setting.field⟩ : Record Config).read room d
  write c := some (.record ((⟨c, s.2.map Setting.field⟩ : Record Config).members c))

open Json in
def codec : Codec Config := (⟨{}, sections.map sectionField⟩ : Record Config).codec

/-- the configuration of a section alone, as JSON with the defaults for what is missing -/
def decodeSection? (settings : List Setting) (s : String) : Option Config :=
  ((⟨{}, settings.map Setting.field⟩ : Json.Record Config).codec.decodeText s).toOption

def ofJson? (s : String) : Option Config := (codec.decodeText s).toOption

def json (c : Config) : String := codec.encode c

/-! ## TOML -/

/-- the configuration with the value of a setting, if it is of the setting's kind -/
def applyToml (c : Config) (s : Setting) (v : Toml.Value) : Option Config :=
  match s.access, v with
  | .text _ set, .text a => some (set a c)
  | .optional _ set, .text a => some (set (some a) c)
  | .number _ set, .int i => if 0 ≤ i then some (set (UInt64.ofNat i.toNat) c) else none
  | .flag _ set, .bool a => some (set a c)
  | _, _ => none

/-- the configuration with values for settings in their order -/
def applyTomlItems : Config → List Setting → List Toml.Value → Option Config
  | c, s :: ss, v :: vs => do applyTomlItems (← c.applyToml s v) ss vs
  | c, _, _ => some c

/-- the configuration with the values of those settings that have a key -/
def applyTomlEntries (es : Toml.Entries) : Config → List Setting → Option Config
  | c, [] => some c
  | c, s :: ss =>
    match Sorted.find? s.name es with
    | some v => do applyTomlEntries es (← c.applyToml s v) ss
    | none => applyTomlEntries es c ss

/-- The configuration with a section's value: a table, an array of settings in their order, or a
date, which counts as a table without known keys. -/
def applyTomlSection (c : Config) (settings : List Setting) : Toml.Value → Option Config
  | .table _ es => applyTomlEntries es c settings
  | .array items => applyTomlItems c settings items
  | .tables elements => applyTomlItems c settings (elements.map (.table .header))
  | .date _ => some c
  | _ => none

def applyTomlSections (es : Toml.Entries) : Config → List (String × List Setting) → Option Config
  | c, [] => some c
  | c, (name, settings) :: rest =>
    match Sorted.find? name es with
    | some v => do applyTomlSections es (← c.applyTomlSection settings v) rest
    | none => applyTomlSections es c rest

def ofToml? (s : String) : Option Config := do applyTomlSections (← Toml.read? s) {} sections

/-- The line of a setting.  An optional one without a value has none; numbers of more than 63 bits
cannot be written. -/
def tomlLine? (c : Config) (s : Setting) : Option (List Char) :=
  let line (v : List Char) : List Char := s.name.toList ++ [' ', '=', ' '] ++ v ++ ['\n']
  match s.access with
  | .text get _ => some (line (Toml.renderText (get c)))
  | .optional get _ =>
    match get c with
    | some v => some (line (Toml.renderText v))
    | none => some []
  | .number get _ =>
    if (get c).toNat < 0x8000000000000000 then some (line (Decimal.digits (get c).toNat)) else none
  | .flag get _ => some (line (if get c then "true".toList else "false".toList))

/-- the lines of a section, after its header -/
def tomlSection? (c : Config) (s : String × List Setting) : Option (List Char) := do
  let lines ← s.2.mapM c.tomlLine?
  return ['['] ++ s.1.toList ++ [']', '\n'] ++ lines.flatten

/-- the TOML document of a configuration, with an empty line between sections -/
def toml? (c : Config) : Option String := do
  let parts ← sections.mapM c.tomlSection?
  return String.ofList (List.intercalate ['\n'] parts)

end Config

end DeviceHub
