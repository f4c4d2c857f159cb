/-!
# Topics of devices

Devices use the topics `v1/dev/<device>/...`.

* `Topic.subscriptions`  the filters of all topics that devices publish on;
* `Topic.Kind.ofTopic`   the kind of a topic, by its ending;
* `Topic.command`        the topic on which a device takes commands;
* `Topic.device?`        the device that a topic names.
-/

namespace DeviceHub.Topic

/-- The levels in front of the device. -/
def root : String := "v1/dev/"

/-- the kinds of topics -/
inductive Kind
  | telemetry
  | event
  | state
  | ack
  | configStatus
  | lastWill
  | other
deriving DecidableEq, Repr

namespace Kind

/-- the short name of a kind -/
def name : Kind → String
  | .telemetry => "telemetry"
  | .event => "event"
  | .state => "state"
  | .ack => "ack"
  | .configStatus => "cfg_status"
  | .lastWill => "lwt"
  | .other => "other"

/-- The levels after the device, in the order in which they are subscribed. -/
def endings : List (Kind × String) :=
  [(.telemetry, "telemetry"), (.event, "event"), (.state, "state"), (.ack, "ack"),
    (.configStatus, "cfg/status"), (.lastWill, "lwt")]

/-- the kind of a topic: that of the ending which follows a slash -/
def ofTopic (topic : String) : Kind :=
  match endings.find? fun e => ('/' :: e.2.toList).isSuffixOf topic.toList with
  | some e => e.1
  | none => .other

end Kind

/-- The filters of all topics that devices publish on, where `+` stands for any one level. -/
def subscriptions : List String := Kind.endings.map fun e => root ++ "+/" ++ e.2

/-- the topic on which a device takes commands -/
def command (device : String) : String := root ++ device ++ "/cmd"

/-- the text before the first slash of one that has a slash -/
def beforeSlash? (cs : List Char) : Option (List Char) :=
  if '/' ∈ cs then some (cs.takeWhile (· ≠ '/')) else none

/-- the device that a topic names: the level after the root, when another one follows -/
def device? (topic : String) : Option String :=
  if root.toList.isPrefixOf topic.toList then
    match beforeSlash? (topic.toList.drop root.toList.length) with
    | some [] => none
    | some cs => some (String.ofList cs)
    | none => none
  else none

example : subscriptions = ["v1/dev/+/telemetry", "v1/dev/+/event", "v1/dev/+/state",
    "v1/dev/+/ack", "v1/dev/+/cfg/status", "v1/dev/+/lwt"] := by decide
example : device? "v1/dev/a/b/c" = some "a" := by decide
example : device? "v1/dev//telemetry" = none := by decide

end DeviceHub.Topic
