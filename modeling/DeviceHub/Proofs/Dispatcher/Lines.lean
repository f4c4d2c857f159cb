import DeviceHub.Proofs.Dispatcher.Run
import DeviceHub.Proofs.Message.Finite
import DeviceHub.Proofs.Message.Reading
import DeviceHub.Proofs.Point.Words
import DeviceHub.Proofs.Text.Utf8

/-!
# The lines of what the dispatcher offers

Devices choose the values of tags and fields, but no keys; and what they report is finite.

* `metricPoint_worded`, `statePoint_worded`, `eventPoint_worded`   the points of messages;
* `Inbound.Reads.makes_worded`, `Dispatcher.offered_worded`        the points of a message, and of a run;
* `Dispatcher.offered_line`   the line of every point that is offered shows it, unless the value of a
                              tag ends in a backslash.
-/

namespace DeviceHub

open Message Point

/-! ## Tags and fields -/

theorem Point.Worded.withSentinel {p : Point} (h : p.Worded) : p.withSentinel.Worded := by
  unfold Point.withSentinel
  split
  · exact h.field (by decide) rfl
  · exact h

theorem Point.withSentinel_fields_ne_nil (p : Point) : p.withSentinel.fields ≠ [] := by
  unfold Point.withSentinel
  split
  · exact Sorted.insert_ne_nil _ _ _
  · rename_i h
    exact fun hnil => h (List.isEmpty_iff.mpr hnil)

theorem Point.tagUnlessEmpty_fields (p : Point) (key : String) (value : Option String) :
    (p.tagUnlessEmpty key value).fields = p.fields := by
  cases value with
  | none => rfl
  | some v =>
    unfold Point.tagUnlessEmpty
    simp only
    split <;> rfl

/-! ## The points of messages -/

theorem metricPoint_worded {e : Envelope} {key : String} {m : Metric} (hdevice : e.device ≠ "")
    (hkey : key ≠ "") (hvalue : m.value.isFinite = true) :
    (metricPoint e key m).Worded ∧ (metricPoint e key m).fields ≠ [] := by
  have hfield : (FieldValue.float m.value).isUsable = true := hvalue
  unfold metricPoint
  constructor
  · exact ((((Worded.new (by decide) e.ts).tag (by decide) hdevice).tag (by decide) hkey).field
      (by decide) hfield).tagUnlessEmpty (by decide) _
  · rw [Point.tagUnlessEmpty_fields]
    exact Sorted.insert_ne_nil _ _ _

theorem statePoint_worded {e : Envelope} {r : Report} (hdevice : e.device ≠ "")
    (hrssi : ∀ l ∈ r.link, ∀ x ∈ l.rssi, x.isFinite = true) :
    (statePoint e r).Worded ∧ (statePoint e r).fields ≠ [] := by
  refine ⟨?_, Point.withSentinel_fields_ne_nil _⟩
  have hfloat : ∀ x ∈ r.link.bind (·.rssi), (FieldValue.float x).isUsable = true := by
    intro x hx
    obtain ⟨l, hl, hx⟩ := Option.bind_eq_some_iff.mp hx
    exact hrssi l hl x hx
  unfold statePoint
  exact ((((((((((Worded.new (by decide) e.ts).tag (by decide) hdevice).tagUnlessEmpty (by decide) _)
    |>.tagUnlessEmpty (by decide) _)
    |>.fieldIfSome (by decide) hfloat)
    |>.fieldIfSome (by decide) fun _ _ => rfl)
    |>.fieldIfSome (by decide) fun _ _ => rfl)
    |>.fieldIfSome (by decide) fun _ _ => rfl)
    |>.fieldIfSome (by decide) fun _ _ => rfl)
    |>.fieldIfSome (by decide) fun _ _ => rfl).withSentinel

theorem eventPoint_worded {e : Envelope} {ev : Event} (hdevice : e.device ≠ "") :
    (eventPoint e ev).Worded ∧ (eventPoint e ev).fields ≠ [] := by
  refine ⟨?_, Point.withSentinel_fields_ne_nil _⟩
  unfold eventPoint
  exact ((((((Worded.new (by decide) e.ts).tag (by decide) hdevice).tagUnlessEmpty (by decide) _)
    |>.tagUnlessEmpty (by decide) _)
    |>.fieldIfSome (by decide) fun _ _ => rfl)
    |>.fieldIfSome (by decide) fun _ _ => rfl).withSentinel

/-! ## The points of a run -/

theorem Throttle.sift_sublist {α : Type} (device : String) (at_ : Int64) (t : Throttle)
    (ms : List (String × α)) : ((t.sift device at_ ms).1).Sublist ms := by
  induction ms generalizing t with
  | nil => exact List.Sublist.slnil
  | cons m ms ih =>
    rw [Throttle.sift]
    split
    · exact (ih t).cons m
    · exact (ih _).cons_cons m

theorem Dispatcher.mem_namedMetrics {tel : Telemetry} {m : String × Metric}
    (h : m ∈ namedMetrics tel) : m.1 ≠ "" ∧ m.2 ∈ tel.metrics := by
  obtain ⟨hmem, hkey⟩ := List.mem_filter.mp h
  obtain ⟨metric, hmetric, rfl⟩ := List.mem_map.mp hmem
  exact ⟨of_decide_eq_true hkey, hmetric⟩

namespace Inbound

theorem Enveloped.device_ne_empty {payload : List UInt8} {e : Envelope}
    (h : Enveloped payload e) : e.device ≠ "" := by
  intro hempty
  have hblank := (Envelope.fault?_eq_none.mp h.valid).2.1
  rw [hempty] at hblank
  exact absurd hblank (by decide)

theorem Reads.makes_worded {topic : String} {payload : List UInt8} {m : Inbound}
    (h : Reads topic payload m) {t : Throttle} {p : Point} (hp : p ∈ (m.makes t).1) :
    p.Worded ∧ p.fields ≠ [] := by
  cases h with
  | telemetry kind envelope body =>
    obtain ⟨m, hm, rfl⟩ := List.mem_map.mp hp
    obtain ⟨hkey, hmetric⟩ :=
      Dispatcher.mem_namedMetrics ((Throttle.sift_sublist ..).subset hm)
    exact metricPoint_worded envelope.device_ne_empty hkey
      (Telemetry.finite.of_decode body m.2 hmetric)
  | state kind envelope body =>
    obtain rfl := List.mem_singleton.mp hp
    exact statePoint_worded envelope.device_ne_empty (Report.finite.of_decode body)
  | event kind envelope body =>
    obtain rfl := List.mem_singleton.mp hp
    exact eventPoint_worded envelope.device_ne_empty
  | _ => cases hp

theorem mem_makeAll {t : Throttle} {ms : List (Int64 × Inbound)} {p : Point}
    (h : p ∈ (makeAll t ms).1) : ∃ m ∈ ms, ∃ t', p ∈ (m.2.makes t').1 := by
  induction ms generalizing t with
  | nil => cases h
  | cons m ms ih =>
    rcases List.mem_append.mp h with hp | hp
    · exact ⟨m, List.mem_cons_self, t, hp⟩
    · obtain ⟨m', hm', ht'⟩ := ih hp
      exact ⟨m', List.mem_cons_of_mem _ hm', ht'⟩

end Inbound

theorem mem_accepted {as : List Arrival} {m : Int64 × Inbound} (h : m ∈ accepted as) :
    ∃ a ∈ as, Inbound.read a.topic a.payload = .ok m.2 := by
  obtain ⟨a, ha, hm⟩ := List.mem_filterMap.mp h
  refine ⟨a, ha, ?_⟩
  unfold Arrival.accepted? at hm
  split at hm
  · rename_i hread
    cases hm
    exact hread
  · cases hm

namespace Dispatcher

variable {σ : Type}

theorem offered_worded {s : Sink σ} {d : Dispatcher σ} {as : List Arrival} {p : Point}
    (hp : p ∈ d.offered s as) : p.Worded ∧ p.fields ≠ [] := by
  rw [offered_eq] at hp
  obtain ⟨m, hm, t, hp⟩ := Inbound.mem_makeAll hp
  obtain ⟨a, -, hread⟩ := mem_accepted hm
  exact (Inbound.read_eq_ok_iff.mp hread).makes_worded hp

/-- The value of a tag that ends in a backslash makes a line unreadable: the line of the event `x` of
a device whose name does shows no point. -/
theorem offered_line_may_show_nothing :
    let s : Sink Unit := ⟨fun x _ => (x, none)⟩
    let d : Dispatcher Unit := { sink := (), throttle := .new 0 }
    let payload := Text.Utf8.encode
      "\x7b\"v\":1,\"deviceId\":\"d\\\\\",\"ts\":5,\"code\":\"x\"\x7d"
    ¬ ∀ p ∈ d.offered s [⟨7, "v1/dev/d/event", payload⟩], ∃ line r, p.line? = some line ∧
      Reader.read? line = some r ∧ r.tags = p.tags.map (fun t => (t.1, unbroken t.2)) ∧
      r.fields.map (·.1) = p.fields.map (·.1) ∧ r.ts = p.ts := by
  intro s d payload hclaim
  have hlines : (d.offered s [⟨7, "v1/dev/d/event", payload⟩]).map Point.line? =
      [some "event,code=x,deviceId=d\\ seen=1i 5"] := by
    rw [show payload = _ from Text.Utf8.encode_eq _]
    decide +kernel
  obtain ⟨p, hp, hline⟩ := List.mem_map.mp (hlines ▸ List.mem_singleton_self _)
  obtain ⟨line, r, hline', hread, -⟩ := hclaim p hp
  obtain rfl := Option.some.inj (hline.symm.trans hline')
  have hnone : Reader.read? "event,code=x,deviceId=d\\ seen=1i 5" = none := by decide +kernel
  exact nomatch hnone.symm.trans hread

/-- Every point that is offered in a run has a line.  When no value of its tags ends in a backslash,
the line shows its own measurement, its own tags with their own values, in which line breaks are
spaces, its own fields with their values, and its time.  Otherwise it shows nothing at all. -/
theorem offered_line (s : Sink σ) (d : Dispatcher σ) (as : List Arrival) {p : Point}
    (hp : p ∈ d.offered s as) : ∃ line, p.line? = some line ∧ Reader.read? line =
      if ∀ t ∈ p.tags, ¬ EndsInBackslash t.2 then
        some ⟨p.measurement, p.tags.map fun t => (t.1, unbroken t.2),
          p.fields.map fun f => (f.1, f.2.shown), p.ts⟩
      else none := by
  obtain ⟨hworded, hfield⟩ := offered_worded hp
  exact hworded.read?_line hfield

/-- The event of a device with a name full of separators. -/
theorem offered_line_separators :
    let s : Sink Unit := ⟨fun x _ => (x, none)⟩
    let d : Dispatcher Unit := { sink := (), throttle := .new 0 }
    let payload := Text.Utf8.encode
      "\x7b\"v\":1,\"deviceId\":\"a=b,\\n c\",\"ts\":5,\"code\":\"x y\"\x7d"
    ∃ p ∈ d.offered s [⟨7, "v1/dev/d/event", payload⟩], ∃ line, p.line? = some line ∧
      Reader.read? line =
        some ⟨"event", [("code", "x y"), ("deviceId", "a=b,  c")], [("seen", .int 1)], 5⟩ := by
  intro s d payload
  have hpoint : ((d.offered s [⟨7, "v1/dev/d/event", payload⟩]).any fun p =>
      (∀ t ∈ p.tags, ¬ EndsInBackslash t.2) ∧
        (⟨p.measurement, p.tags.map fun t => (t.1, unbroken t.2),
          p.fields.map fun f => (f.1, f.2.shown), p.ts⟩ : Reading) =
        ⟨"event", [("code", "x y"), ("deviceId", "a=b,  c")], [("seen", .int 1)], 5⟩) = true := by
    rw [show payload = _ from Text.Utf8.encode_eq _]
    decide +kernel
  obtain ⟨p, hp, hboth⟩ := List.any_eq_true.mp hpoint
  obtain ⟨htags, hreading⟩ := of_decide_eq_true hboth
  obtain ⟨line, hline, hread⟩ := offered_line s d _ hp
  rw [if_pos htags, hreading] at hread
  exact ⟨p, hp, line, hline, hread⟩

end Dispatcher

end DeviceHub
