import DeviceHub.Proofs.Dispatcher.Finite
import DeviceHub.Service

/-!
# Devices in the list and by themselves

The list shows every device under the name that its messages gave.  A request for one device is
answered for the name without the blanks at its ends.

* `Inbound.learn_isKeyed`, `learnAll_isKeyed`   messages leave every entry under its name;
* `Service.Shows`                    a response shows a device as the list does;
* `Service.listed_devices_are_shown`     a request for a listed name shows the device, unless there are
                                     blanks at an end of the name;
* `Service.listed_device_not_shown`      of which there may be some.
-/

namespace DeviceHub

/-! ## Names in a run -/

namespace Inbound

theorem learn_isKeyed {r : Registry} (hr : r.IsKeyed) (now : Int64) (m : Inbound) :
    Registry.IsKeyed (m.learn now r) := by
  cases m with
  | telemetry e t => exact hr.telemetry now _ _ _
  | state e rep => exact hr.report now _ _ _
  | event e ev => exact hr.touch now _ _ _
  | ack e a => exact hr.touch now _ _ _
  | configStatus e => exact hr.touch now _ _ _
  | other e => exact hr
  | lastWill device online =>
    cases online with
    | true => exact hr.touch now _ _ _
    | false => exact hr.offline now _ _ _

theorem learnAll_isKeyed {r : Registry} (hr : r.IsKeyed) (ms : List (Int64 × Inbound)) :
    Registry.IsKeyed (learnAll r ms) := by
  induction ms generalizing r with
  | nil => exact hr
  | cons m ms ih => exact ih (learn_isKeyed hr m.1 m.2)

end Inbound

theorem Dispatcher.run_isKeyed {σ : Type} (s : Sink σ) {d : Dispatcher σ} (hd : d.registry = [])
    (as : List Arrival) : Registry.IsKeyed (d.run s as).1.registry := by
  rw [(ran s d as).registry, hd]
  exact Inbound.learnAll_isKeyed Registry.isKeyed_nil _

/-! ## The two ways to see a device -/

namespace Service

open Json

theorem member?_deviceDetail (e : Registry.Entry) :
    (deviceDetail e).member? "device" = some (summaryDoc e) := by
  unfold deviceDetail Doc.record Doc.member? given?
  simp

theorem member?_summaryDoc (e : Registry.Entry) :
    (summaryDoc e).member? "deviceId" = some (.text e.device) := by
  unfold summaryDoc Doc.member? given?
  rfl

/-- A response shows a device, and the part `device` of it is as in the list. -/
def Shows (r : Response) (e : Registry.Entry) : Prop :=
  ∃ detail, r = ok 200 detail ∧ detail.member? "device" = some (summaryDoc e)

section
variable (v : View) {name : String}

theorem showDevice_of_blank (h : Text.trim name = "") :
    showDevice v (some name) = (Failure.badRequest "device id is required").response := by
  unfold showDevice
  exact if_pos h

theorem status_of_blank (h : Text.trim name = "") : (showDevice v (some name)).status = 400 := by
  rw [showDevice_of_blank v h]
  rfl

theorem showDevice_of_get? {e : Registry.Entry} (h : Text.trim name ≠ "")
    (hget : v.registry.get? (Text.trim name) = some e) :
    showDevice v (some name) = ok 200 (deviceDetail e) := by
  unfold showDevice
  simp only [if_neg h, hget]

theorem showDevice_of_unknown (h : Text.trim name ≠ "")
    (hget : v.registry.get? (Text.trim name) = none) : showDevice v (some name) =
      (Failure.notFound ("device '" ++ Text.trim name ++ "' not found")).response := by
  unfold showDevice
  simp only [if_neg h, hget]

theorem status_of_unknown (h : Text.trim name ≠ "")
    (hget : v.registry.get? (Text.trim name) = none) :
    (showDevice v (some name)).status = 404 := by
  rw [showDevice_of_unknown v h hget]
  rfl

end

/-- After any run that began without devices, a request for a listed device whose name has no blanks
at its ends shows this device.  A request for another listed name is refused when nothing is left of
the name without the blanks, shows the device of the name that is left when there is one, and finds
none otherwise. -/
theorem listed_devices_are_shown {σ : Type} (s : Sink σ) (d : Dispatcher σ) (as : List Arrival)
    (v : View) (hd : d.registry = []) (hv : v.registry = (d.run s as).1.registry) :
    read v .devices = ok 200 (.array (v.registry.list.map summaryDoc)) ∧
    ∀ e ∈ v.registry.list,
      (Text.trim e.device = e.device → Shows (showDevice v (some e.device)) e) ∧
      (Text.trim e.device ≠ e.device →
        Text.trim e.device = "" ∧ (showDevice v (some e.device)).status = 400 ∨
        (∃ e' ∈ v.registry.list, e'.device = Text.trim e.device ∧
          showDevice v (some e.device) = ok 200 (deviceDetail e') ∧
          (deviceDetail e').member? "device" ≠ some (summaryDoc e)) ∨
        (∀ e' ∈ v.registry.list, e'.device ≠ Text.trim e.device) ∧
          (showDevice v (some e.device)).status = 404) := by
  have hkeyed : v.registry.IsKeyed := hv ▸ d.run_isKeyed s hd as
  refine ⟨rfl, fun e he => ⟨fun htrim => ?_, fun htrim => ?_⟩⟩
  · have hname : Text.trim e.device ≠ "" := by
      rw [htrim]
      exact hkeyed.device_ne_empty he
    have hget : v.registry.get? (Text.trim e.device) = some e :=
      hkeyed.get?_eq_some_iff.mpr ⟨he, htrim.symm⟩
    exact ⟨deviceDetail e, showDevice_of_get? v hname hget, member?_deviceDetail e⟩
  · by_cases hname : Text.trim e.device = ""
    · exact Or.inl ⟨hname, status_of_blank v hname⟩
    cases hget : v.registry.get? (Text.trim e.device) with
    | none =>
      refine Or.inr (Or.inr ⟨fun e' he' hsame => ?_, status_of_unknown v hname hget⟩)
      cases hget.symm.trans (hkeyed.get?_eq_some_iff.mpr ⟨he', hsame⟩)
    | some e' =>
      obtain ⟨he', hsame⟩ := hkeyed.get?_eq_some_iff.mp hget
      refine Or.inr (Or.inl ⟨e', he', hsame, showDevice_of_get? v hname hget, fun hmember => ?_⟩)
      -- the two summaries name different devices
      rw [member?_deviceDetail] at hmember
      have hdevice := congrArg (Doc.member? "deviceId") (Option.some.inj hmember)
      rw [member?_summaryDoc, member?_summaryDoc] at hdevice
      have : e'.device = e.device := by simpa [Doc.text] using hdevice
      exact htrim (hsame.symm.trans this)

/-- A message of one device, and the last wills of two others, of whose names one is blank and one
has a blank in front. -/
theorem listed_devices_are_shown_blanks :
    let s : Sink Unit := ⟨fun x _ => (x, none)⟩
    let d : Dispatcher Unit := { sink := (), throttle := .new 0 }
    let payload := Text.Utf8.encode "\x7b\"v\":1,\"deviceId\":\"d\",\"ts\":5\x7d"
    let online := Text.Utf8.encode "online"
    let as : List Arrival := [⟨7, "v1/dev/d/ack", payload⟩, ⟨8, "v1/dev/ d/lwt", online⟩,
      ⟨9, "v1/dev/ /lwt", online⟩]
    let v : View := ⟨.connected, 0, 0, none, (d.run s as).1.registry⟩
    d.registry = [] ∧ v.registry.list.map (·.device) = [" ", " d", "d"] ∧
      (∃ e ∈ v.registry.list, e.device = "d" ∧ Shows (showDevice v (some "d")) e) ∧
      (showDevice v (some " ")).status = 400 ∧
      ∃ e ∈ v.registry.list, e.device = "d" ∧ showDevice v (some " d") = ok 200 (deviceDetail e) := by
  intro s d payload online as v
  obtain ⟨-, hshown⟩ := listed_devices_are_shown s d as v rfl rfl
  have hlist : v.registry.list.map (·.device) = [" ", " d", "d"] := by
    show (d.run s [⟨7, "v1/dev/d/ack", payload⟩, ⟨8, "v1/dev/ d/lwt", online⟩,
      ⟨9, "v1/dev/ /lwt", online⟩]).1.registry.list.map _ = _
    rw [show payload = _ from Text.Utf8.encode_eq _, show online = _ from Text.Utf8.encode_eq _]
    decide +kernel
  have hmem (name : String) (h : name ∈ [" ", " d", "d"]) :
      ∃ e ∈ v.registry.list, e.device = name := List.mem_map.mp (hlist ▸ h)
  have hblank : Text.trim " " = "" := by cbv
  have htrim : Text.trim " d" = "d" := by cbv
  obtain ⟨e, he, hdevice⟩ := hmem "d" (by decide)
  obtain ⟨eb, heb, hdeviceb⟩ := hmem " " (by decide)
  obtain ⟨es, hes, hdevices⟩ := hmem " d" (by decide)
  have hd : Shows (showDevice v (some "d")) e :=
    hdevice ▸ (hshown e he).1 (by rw [hdevice]; cbv)
  have hb : (showDevice v (some " ")).status = 400 := by
    rcases (hshown eb heb).2 (by rw [hdeviceb, hblank]; decide) with h | ⟨e', he', hsame, -⟩ | h
    · exact hdeviceb ▸ h.2
    · rw [hdeviceb, hblank] at hsame
      have hkeyed : v.registry.IsKeyed := d.run_isKeyed s rfl as
      exact absurd hsame (hkeyed.device_ne_empty he')
    · rw [hdeviceb] at h
      cases h.2.symm.trans (status_of_blank v hblank)
  refine ⟨rfl, hlist, ⟨e, he, hdevice, hd⟩, hb, ?_⟩
  rcases (hshown es hes).2 (by rw [hdevices, htrim]; decide) with h | ⟨e', he', hsame, hok, -⟩ | h
  · rw [hdevices, htrim] at h
    exact absurd h.1 (by decide)
  · rw [hdevices] at hsame hok
    exact ⟨e', he', hsame.trans htrim, hok⟩
  · rw [hdevices, htrim] at h
    exact absurd hdevice (h.1 e he)

/-- A device whose name begins with a blank is listed, and a request for it finds no device. -/
theorem listed_device_not_shown :
    ¬ ∀ (s : Sink Unit) (d : Dispatcher Unit) (as : List Arrival) (v : View),
      d.registry = [] → v.registry = (d.run s as).1.registry →
      ∀ e ∈ v.registry.list, Shows (showDevice v (some e.device)) e := by
  intro h
  let s : Sink Unit := ⟨fun x _ => (x, none)⟩
  let d : Dispatcher Unit := { sink := (), throttle := .new 0 }
  let payload := Text.Utf8.encode "\x7b\"v\":1,\"deviceId\":\" dev-1\",\"ts\":5\x7d"
  let v : View := ⟨.connected, 0, 0, none,
    (d.run s [⟨7, "v1/dev/dev-1/cfg/status", payload⟩]).1.registry⟩
  have hlist : v.registry.list.map (·.device) = [" dev-1"] := by decide +kernel
  obtain ⟨e, he, hdevice⟩ := List.mem_map.mp (hlist ▸ List.mem_singleton_self " dev-1")
  obtain ⟨detail, hok, -⟩ := h s d _ v rfl rfl e he
  have hstatus : (showDevice v (some " dev-1")).status = 404 := by decide +kernel
  rw [hdevice] at hok
  cases hstatus.symm.trans (congrArg Response.status hok)

end Service

end DeviceHub
