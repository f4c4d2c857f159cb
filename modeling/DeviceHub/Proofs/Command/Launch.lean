import Mathlib
import DeviceHub.Command.Send

/-!
# Launching a command: laws

* `Request.launch_error`  a request is only ever refused as invalid;
* `Request.launch_ok`     the command and the send of a request carry its id and its trimmed device;
* `Request.Blank`, `Request.effectiveLimit`, `Request.command`, `Request.Carries`   what a request says:
                          whether it is in order, how long it waits, and what is to be published;
* `Request.launch_of_blank`, `Request.launch_of_named`   what launching makes of that.
-/

namespace DeviceHub.Command.Request

theorem launch_error {r : Request} {limit : Duration} {id : String} {now : Int64} {e : Error}
    (h : r.launch limit id now = .error e) : ∃ msg, e = .invalidRequest msg := by
  unfold launch at h
  simp only at h
  split at h
  · cases h
    exact ⟨_, rfl⟩
  · split at h
    · cases h
      exact ⟨_, rfl⟩
    · cases h

/-- what a request that is in order becomes -/
structure Launched (r : Request) (id : String) (send : Send) (c : Message.Command) : Prop where
  send_id : send.id = id
  command_id : c.id = id
  send_device : send.device = Text.trim r.device
  command_device : c.device = Text.trim r.device
  named : send.device ≠ ""

theorem launch_ok {r : Request} {limit : Duration} {id : String} {now : Int64} {send : Send}
    {c : Message.Command} (h : r.launch limit id now = .ok (send, c)) : Launched r id send c := by
  unfold launch at h
  simp only at h
  split at h
  · cases h
  · rename_i hdevice
    split at h
    · cases h
    · cases h
      exact ⟨rfl, rfl, rfl, rfl, hdevice⟩

/-! ## What a request says -/

/-- A request is blank that names no device or no kind. -/
def Blank (r : Request) : Prop := Text.trim r.device = "" ∨ Text.trim r.kind = ""

/-- How long a request waits: as long as it says, or if it says nothing as long as it is configured, and
ten seconds if nothing is configured. -/
def effectiveLimit (r : Request) (c : Config.Commands) : Duration :=
  if r.limit.isZero then
    if c.defaultTimeoutMs = 0 then .ofMillis 10000 else .ofMillis c.defaultTimeoutMs
  else r.limit

theorem launch_of_blank {r : Request} (h : r.Blank) (limit : Duration) (id : String) (now : Int64) :
    ∃ msg, r.launch limit id now = .error (.invalidRequest msg) := by
  unfold launch
  simp only
  split
  · exact ⟨_, rfl⟩
  · rename_i hdevice
    rw [if_pos (h.resolve_left hdevice)]
    exact ⟨_, rfl⟩

def command (r : Request) (id : String) (ts : Int64) : Message.Command where
  version := Message.protocolVersion
  id := id
  device := Text.trim r.device
  ts := ts
  kind := Text.trim r.kind
  params := r.params

/-- A message carries the command of a request under an id: to its device, at least once, not retained. -/
structure Carries (r : Request) (id : String) (p : Publication) : Prop where
  topic : p.topic = "v1/dev/" ++ Text.trim r.device ++ "/cmd"
  qos : p.qos = .atLeastOnce
  retain : p.retain = false
  payload : ∃ ts, p.payload =
    Text.Utf8.encode (Message.Command.record.codec.encode (r.command id ts))

theorem carries_publication (r : Request) (id : String) (ts : Int64) :
    r.Carries id (publication (r.command id ts)) := by
  refine ⟨rfl, rfl, rfl, ts, ?_⟩
  unfold publication
  with_reducible rfl

theorem launch_of_named {r : Request} (h : ¬ r.Blank) (c : Config.Commands) (id : String)
    (now : Int64) : r.launch (limitOfConfig c) id now =
      .ok (⟨id, Text.trim r.device, r.effectiveLimit c⟩, r.command id now) := by
  obtain ⟨hdevice, hkind⟩ := not_or.mp h
  unfold launch
  simp only [if_neg hdevice, if_neg hkind]
  rfl

end DeviceHub.Command.Request
