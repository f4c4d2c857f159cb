import DeviceHub.Proofs.Command.Launch
import DeviceHub.Proofs.Dispatcher.Finite
import DeviceHub.Proofs.Topic.Levels

/-!
# Where commands go

A command is published on a topic that is made of the name of its device.  The name of a device is any
text that is not blank, and the topic names this device if there is no slash in the text.

* `exists_payload`            the payload of a command names its device;
* `mem_command_iff`           a wildcard in the topic stands in the name;
* `command_names_its_device`  what the topic of a command names;
* `command_may_name_another`  which may be another device.
-/

namespace DeviceHub.Command

theorem member?_command (c : Message.Command) :
    (Message.Command.record.codec.write c).member? "deviceId" = some (.text c.device) := by
  unfold Json.Record.codec Json.Doc.record Json.Doc.member? Json.given?
  rfl

theorem exists_payload (c : Message.Command) : ∃ d : Json.Doc,
    (publication c).payload = Text.Utf8.encode d.render ∧
      d.member? "deviceId" = some (.text c.device) := by
  refine ⟨Message.Command.record.codec.write c, ?_, member?_command c⟩
  unfold publication Json.Codec.encode
  with_reducible rfl

theorem mem_command_iff {w : Char} (hroot : w ∉ Topic.root.toList) (hend : w ∉ "/cmd".toList)
    (device : String) : w ∈ (Topic.command device).toList ↔ w ∈ device.toList := by
  unfold Topic.command
  rw [String.toList_append, String.toList_append, List.mem_append, List.mem_append,
    or_iff_left hend, or_iff_right hroot]

/-- The command of every request that is accepted is published with the name of its device, which is the
trimmed one of the request, in the payload, and on a topic that consists of `v1`, `dev`, the levels of
the name, and `cmd`.  These are four levels, and the topic names the device, if and only if there is no
slash in the name; otherwise the topic names what comes before the first slash of it.  There are
wildcards in the topic if and only if they are in the name.  No two names have the same topic, and the
topics of two names that begin with the same level name the same device. -/
theorem command_names_its_device {r : Request} {limit : Duration} {id : String} {now : Int64}
    {send : Send} {c : Message.Command} (h : r.launch limit id now = .ok (send, c)) :
    let p := publication c
    c.device = Text.trim r.device ∧ c.device ≠ "" ∧
    (∃ d : Json.Doc, p.payload = Text.Utf8.encode d.render ∧
      d.member? "deviceId" = some (.text c.device)) ∧
    Topic.levels p.topic = ["v1", "dev"] ++ Topic.levels c.device ++ ["cmd"] ∧
    (Topic.levels p.topic = ["v1", "dev", c.device, "cmd"] ↔ '/' ∉ c.device.toList) ∧
    (Topic.device? p.topic = some c.device ↔ '/' ∉ c.device.toList) ∧
    (∀ level rest : String, '/' ∉ level.toList → c.device = level ++ "/" ++ rest →
      Topic.device? p.topic = if level = "" then none else some level) ∧
    (∀ w ∈ ['+', '#'], w ∈ p.topic.toList ↔ w ∈ c.device.toList) ∧
    ∀ other, (Topic.command other = p.topic ↔ other = c.device) ∧
      (Topic.device? (Topic.command other) = Topic.device? p.topic ↔
        Topic.firstLevel other = Topic.firstLevel c.device) := by
  intro p
  have htopic : p.topic = Topic.command c.device := rfl
  have hlaunched := Request.launch_ok h
  have hnamed : c.device ≠ "" := by
    rw [hlaunched.command_device, ← hlaunched.send_device]
    exact hlaunched.named
  rw [htopic]
  refine ⟨hlaunched.command_device, hnamed, exists_payload c,
    Topic.levels_command c.device, Topic.levels_command_eq_iff c.device,
    Topic.device?_command_eq_self_iff c.device hnamed, fun level rest hlevel hdevice => ?_,
    fun w hw => ?_, fun other => ⟨Topic.command_injective.eq_iff, Topic.device?_command_eq_iff _⟩⟩
  · rw [Topic.device?_command, hdevice, Topic.firstLevel_slash hlevel]
  · have hother : ∀ w ∈ ['+', '#'], w ∉ Topic.root.toList ∧ w ∉ "/cmd".toList := by
      simp [Topic.root]
    exact mem_command_iff (hother w hw).1 (hother w hw).2 c.device

/-- The name of a device may begin with that of another, and the topic of its commands then names this
other one. -/
theorem command_names_its_device_below :
    let r : Request := ⟨" a/b ", "ping", [], .ofMillis 0⟩
    let c := r.command "i" 5
    (∃ send, r.launch (limitOfConfig {}) "i" 5 = .ok (send, c)) ∧ c.device = "a/b" ∧
      Topic.levels (publication c).topic = ["v1", "dev", "a", "b", "cmd"] ∧
      Topic.device? (publication c).topic = some "a" := by
  intro r c
  have htrim : Text.trim r.device = "a/b" := by cbv
  have hkind : Text.trim r.kind = "ping" := by cbv
  have hnamed : ¬ r.Blank := by
    rintro (h | h)
    · exact absurd (htrim.symm.trans h) (by decide)
    · exact absurd (hkind.symm.trans h) (by decide)
  have hlaunch := Request.launch_of_named hnamed {} "i" 5
  obtain ⟨hdevice, -, -, hlevels, -, -, hnames, -⟩ := command_names_its_device hlaunch
  have hname : c.device = "a/b" := hdevice.trans htrim
  refine ⟨⟨_, hlaunch⟩, hname, hlevels.trans ?_, (hnames "a" "b" (by decide) hname).trans (by decide)⟩
  rw [hname]
  cbv

/-- Not every command goes to a topic of four levels that names its device and no other. -/
theorem command_may_name_another :
    ¬ ∀ (r : Request) (limit : Duration) (id : String) (now : Int64) (send : Send)
      (c : Message.Command), r.launch limit id now = .ok (send, c) →
      let topic := (publication c).topic
      Topic.levels topic = ["v1", "dev", c.device, "cmd"] ∧
        (∀ w ∈ ['+', '#'], w ∉ topic.toList) ∧ Topic.device? topic = some c.device ∧
        ∀ other, Topic.device? (Topic.command other) = Topic.device? topic → other = c.device := by
  intro h
  let r : Request := ⟨"a/b", "ping", [], .ofMillis 0⟩
  have hname : (r.command "i" 5).device = "a/b" := by cbv
  have hkind : Text.trim r.kind = "ping" := by cbv
  have hnamed : ¬ r.Blank := by
    rintro (h | h)
    · exact absurd (hname.symm.trans h) (by decide)
    · exact absurd (hkind.symm.trans h) (by decide)
  obtain ⟨-, -, hdevice, -⟩ := h _ _ _ _ _ _ (Request.launch_of_named hnamed {} "i" 5)
  have hother : Topic.device? (publication (r.command "i" 5)).topic = some "a" := by
    show Topic.device? (Topic.command (r.command "i" 5).device) = some "a"
    rw [hname]
    cbv
  rw [hother, hname] at hdevice
  exact absurd (Option.some.inj hdevice) (by decide)

end DeviceHub.Command
