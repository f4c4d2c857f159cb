import DeviceHub.Json.Record
import DeviceHub.Sorted

/-!
# The registry of devices

* `Registry.Entry`      what is known of one device;
* `Registry.touch`      the device was heard of;
* `Registry.report`     it reported its state;
* `Registry.telemetry`  it sent measured values;
* `Registry.offline`    it went offline;
* `Registry.get?`, `Registry.list`  one device, and all devices by their names.

Every call takes the current time, which stands for times that are not positive.  Calls for a device
with an empty name change nothing.
-/

namespace DeviceHub.Registry

/-- the values of the last telemetry message that had some -/
structure Snapshot where
  ts : Int64
  metrics : List (String × Float)

/-- what is known of a device -/
structure Entry where
  device : String
  firstSeen : Int64
  lastSeen : Int64
  status : Option String := none
  link : Option String := none
  ip : Option String := none
  firmware : Option String := none
  uptime : Option Int64 := none
  lastReport : Option Int64 := none
  lastTelemetry : Option Snapshot := none
  lastSource : String

/-- a reported state; what is `none` was not part of the report -/
structure Status where
  status : String
  link : Option String := none
  ip : Option String := none
  firmware : Option String := none
  uptime : Option Int64 := none

open Json in
def Snapshot.write (s : Snapshot) : Doc :=
  .record [("ts", .int s.ts.toInt), ("metrics", .record (s.metrics.map fun m => (m.1, .float m.2)))]

open Json in
def Entry.write (e : Entry) : Doc :=
  let text := (Codec.option Codec.text).write
  let int := (Codec.option Codec.int64).write
  .record [
    ("deviceId", .text e.device),
    ("firstSeenTs", .int e.firstSeen.toInt),
    ("lastSeenTs", .int e.lastSeen.toInt),
    ("status", text e.status),
    ("link", text e.link),
    ("ip", text e.ip),
    ("fw", text e.firmware),
    ("uptimeSec", int e.uptime),
    ("lastStateTs", int e.lastReport),
    ("lastTelemetry", (e.lastTelemetry.map Snapshot.write).getD .null),
    ("lastSource", .text e.lastSource)]

end Registry

/-- the registry: entries in the order of device names -/
abbrev Registry := List (String × Registry.Entry)

namespace Registry

/-- the time of a call: the given one if it is positive, else the current one -/
def effective (now ts : Int64) : Int64 := if 0 < ts then ts else now

/-- the entry of a device that was just heard of, before and after it was known -/
def seen (r : Registry) (device : String) (ts : Int64) (source : String) : Entry :=
  match Sorted.find? device r with
  | some e => { e with lastSeen := max e.lastSeen ts, lastSource := source }
  | none => { device := device, firstSeen := ts, lastSeen := ts, lastSource := source }

/-- the registry after a device was heard of and its entry changed -/
def update (r : Registry) (device : String) (ts : Int64) (source : String)
    (change : Entry → Entry) : Registry :=
  if device = "" then r else Sorted.insert device (change (r.seen device ts source)) r

def touch (r : Registry) (now : Int64) (device : String) (ts : Int64) (source : String) : Registry :=
  r.update device (effective now ts) source id

def report (r : Registry) (now : Int64) (device : String) (s : Status) (ts : Int64) : Registry :=
  let ts := effective now ts
  r.update device ts "state" fun e =>
    -- what the report leaves out stays as it was known
    { e with
      status := some s.status
      link := s.link <|> e.link
      ip := s.ip <|> e.ip
      firmware := s.firmware <|> e.firmware
      uptime := s.uptime <|> e.uptime
      lastReport := some ts }

/-- measured values of a device; of a repeated metric the last one counts -/
def telemetry (r : Registry) (now : Int64) (device : String) (ts : Int64)
    (metrics : List (String × Float)) : Registry :=
  let ts := effective now ts
  r.update device ts "telemetry" fun e =>
    -- an empty message leaves the last values as they are
    if metrics.isEmpty then e
    else { e with lastTelemetry := some ⟨ts, Sorted.ofList metrics⟩ }

def offline (r : Registry) (now : Int64) (device : String) (ts : Int64) (reason : String) :
    Registry :=
  r.update device (effective now ts) reason fun e => { e with status := some "offline" }

def get? (r : Registry) (device : String) : Option Entry := Sorted.find? device r

/-- all entries by the names of their devices -/
def list (r : Registry) : List Entry := r.map (·.2)

end Registry

end DeviceHub
