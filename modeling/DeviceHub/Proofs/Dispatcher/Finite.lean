import DeviceHub.Influx.Writer
import DeviceHub.Proofs.Dispatcher.Lines
import DeviceHub.Proofs.Registry
import DeviceHub.Service.Model

/-!
# Whatever a device sends, only finite values are kept

* `Service.shownMetrics`, `shownMetrics_deviceDetail`  the measured values in the detail of a device;
* `Point.Worded.offer`       a point of finite fields is not refused for want of fields;
* `Inbound.learnAll_isFinite`   messages teach the registry finite values only;
* `Dispatcher.kept_values_are_finite`  every point that is offered has a line, and every measured value
                                       is shown as a number.
-/

namespace DeviceHub

open Message

/-! ## The detail of a device -/

namespace Json.Doc

def member? (name : String) : Doc → Option Doc
  | .object ms => given? name ms
  | _ => none

theorem float_of_isFinite {x : Float} (hx : x.isFinite = true) : ∃ n, Doc.float x = .number n := by
  obtain ⟨p, hp, -⟩ := Decimal.Layout.finite?_of_isFinite .json hx
  unfold Doc.float
  rw [hp]
  exact ⟨_, rfl⟩

end Json.Doc

namespace Service

open Json

/-- the measured values that the detail of a device shows -/
def shownMetrics (detail : Doc) : List (Option String × Doc) :=
  match (detail.member? "lastTelemetry").bind (·.member? "metrics") with
  | some (.object ms) => ms
  | _ => []

theorem shownMetrics_deviceDetail (e : Registry.Entry) : shownMetrics (deviceDetail e) =
    ((e.lastTelemetry.map (·.metrics)).getD []).map fun m => (some m.1, Doc.float m.2) := by
  have hmember : (deviceDetail e).member? "lastTelemetry" =
      some ((e.lastTelemetry.map Registry.Snapshot.write).getD .null) := by
    unfold deviceDetail Doc.record Doc.member? given?
    simp
  unfold shownMetrics
  rw [hmember]
  cases e.lastTelemetry with
  | none => rfl
  | some snapshot =>
    have hmetrics : snapshot.write.member? "metrics" =
        some (.record (snapshot.metrics.map fun m => (m.1, Doc.float m.2))) := by
      unfold Registry.Snapshot.write Doc.record Doc.member? given?
      simp
    show (match snapshot.write.member? "metrics" with | some (.object ms) => ms | _ => []) = _
    rw [hmetrics]
    exact List.map_map

theorem shownMetrics_of_isFinite {e : Registry.Entry} (h : e.IsFinite) :
    ∀ m ∈ shownMetrics (deviceDetail e), ∃ n, m.2 = .number n := by
  rw [shownMetrics_deviceDetail]
  intro m hm
  obtain ⟨metric, hmetric, rfl⟩ := List.mem_map.mp hm
  cases hlast : e.lastTelemetry with
  | none =>
    rw [hlast] at hmetric
    cases hmetric
  | some snapshot =>
    rw [hlast] at hmetric
    exact Doc.float_of_isFinite (h snapshot hlast metric hmetric)

end Service

/-! ## The writer of points -/

namespace Point.Worded

variable {p : Point}

theorem isFinite (h : p.Worded) {f : String × FieldValue} (hf : f ∈ p.fields) {x : Float}
    (hx : f.2 = .float x) : x.isFinite = true := by
  have husable := (h.fields f hf).2
  rw [hx] at husable
  exact husable

theorem exists_line (h : p.Worded) (hfields : p.fields ≠ []) : ∃ line, p.line? = some line := by
  obtain ⟨line, hline, -⟩ := h.read?_line hfields
  exact ⟨line, hline⟩

end Point.Worded

theorem Influx.Writer.offer_of_line {p : Point} {line : String} (hline : p.line? = some line)
    (w : Writer) : (w.offer p).2 ≠ some (.write "point has no fields") := by
  unfold offer
  rw [hline]
  simp only
  split
  · exact nofun
  · split <;> exact nofun

/-! ## The registry -/

namespace Inbound

theorem Reads.learn_isFinite {topic : String} {payload : List UInt8} {m : Inbound}
    (h : Reads topic payload m) {r : Registry} (hr : r.IsFinite) (now : Int64) :
    Registry.IsFinite (m.learn now r) := by
  cases h with
  | telemetry kind envelope body =>
    refine hr.telemetry now _ _ fun v hv => ?_
    obtain ⟨m, hm, rfl⟩ := List.mem_map.mp hv
    exact Telemetry.finite.of_decode body m.2 (Dispatcher.mem_namedMetrics hm).2
  | state kind envelope body => exact hr.report now _ _ _
  | event kind envelope body => exact hr.touch now _ _ _
  | ack kind envelope body => exact hr.touch now _ _ _
  | configStatus kind envelope => exact hr.touch now _ _ _
  | other kind envelope => exact hr
  | @lastWill device online kind named word =>
    cases online with
    | true => exact hr.touch now _ _ _
    | false => exact hr.offline now _ _ _

theorem learnAll_isFinite {r : Registry} (hr : r.IsFinite) {ms : List (Int64 × Inbound)}
    (hms : ∀ m ∈ ms, ∃ topic payload, Reads topic payload m.2) :
    Registry.IsFinite (learnAll r ms) := by
  induction ms generalizing r with
  | nil => exact hr
  | cons m ms ih =>
    obtain ⟨topic, payload, hreads⟩ := hms m List.mem_cons_self
    show Registry.IsFinite (learnAll (m.2.learn m.1 r) ms)
    exact ih (hreads.learn_isFinite hr m.1) fun n hn => hms n (List.mem_cons_of_mem _ hn)

end Inbound

namespace Dispatcher

variable {σ : Type}

/-- Every point that is offered in a run has a field and no field that is not a finite number, so it
has a line, and no writer refuses it for want of fields.  A registry that was empty at first keeps
finite values only, so the detail of a device shows a number for each of them. -/
theorem kept_values_are_finite (s : Sink σ) (d : Dispatcher σ) (as : List Arrival) :
    (∀ p ∈ d.offered s as, p.fields ≠ [] ∧
      (∀ f ∈ p.fields, ∀ x, f.2 = .float x → x.isFinite = true) ∧
      (∃ line, p.line? = some line) ∧
      ∀ w : Influx.Writer, (w.offer p).2 ≠ some (.write "point has no fields")) ∧
    (d.registry = [] → ∀ e ∈ (d.run s as).1.registry.list,
      e.IsFinite ∧ ∀ m ∈ Service.shownMetrics (Service.deviceDetail e), ∃ n, m.2 = .number n) := by
  constructor
  · intro p hp
    obtain ⟨hworded, hfields⟩ := offered_worded hp
    obtain ⟨line, hline⟩ := hworded.exists_line hfields
    exact ⟨hfields, fun f hf x hx => hworded.isFinite hf hx, ⟨line, hline⟩,
      Influx.Writer.offer_of_line hline⟩
  · intro hempty e he
    have hfinite : Registry.IsFinite (d.run s as).1.registry := by
      rw [(ran s d as).registry, hempty]
      refine Inbound.learnAll_isFinite Registry.isFinite_nil fun m hm => ?_
      obtain ⟨a, -, hread⟩ := mem_accepted hm
      exact ⟨a.topic, a.payload, Inbound.read_eq_ok_iff.mp hread⟩
    obtain ⟨entry, hentry, rfl⟩ := List.mem_map.mp he
    exact ⟨hfinite entry hentry, Service.shownMetrics_of_isFinite (hfinite entry hentry)⟩

/-- One measured value: its point has a line, and the detail of its device shows it. -/
theorem kept_values_are_finite_sample :
    let s : Sink Unit := ⟨fun x _ => (x, none)⟩
    let d : Dispatcher Unit := { sink := (), throttle := .new 0 }
    let payload := Text.Utf8.encode ("\x7b\"v\":1,\"deviceId\":\"d\",\"ts\":5,\"metrics\":" ++
      "[\x7b\"key\":\"a\",\"value\":21.5\x7d]\x7d")
    let as : List Arrival := [⟨7, "v1/dev/d/telemetry", payload⟩]
    d.registry = [] ∧
      (∃ p ∈ d.offered s as, p.fields ≠ [] ∧ (∃ line, p.line? = some line)) ∧
      ∃ e ∈ (d.run s as).1.registry.list, e.IsFinite ∧
        ∃ m ∈ Service.shownMetrics (Service.deviceDetail e), ∃ n, m.2 = .number n := by
  intro s d payload as
  obtain ⟨hpoints, hregistry⟩ := kept_values_are_finite s d as
  have hempty : d.registry = [] := rfl
  have hpayload : payload = _ := Text.Utf8.encode_eq _
  have hpoint : (d.offered s as).length = 1 := by
    show (d.offered s [⟨7, "v1/dev/d/telemetry", payload⟩]).length = 1
    rw [hpayload]
    decide +kernel
  obtain ⟨p, hp⟩ := List.length_eq_one_iff.mp hpoint
  have hmem : p ∈ d.offered s as := hp ▸ List.mem_singleton_self p
  obtain ⟨hfields, -, hline, -⟩ := hpoints p hmem
  have hshown : (d.run s as).1.registry.list.map
      (fun e => (Service.shownMetrics (Service.deviceDetail e)).length) = [1] := by
    show (d.run s [⟨7, "v1/dev/d/telemetry", payload⟩]).1.registry.list.map _ = [1]
    rw [hpayload]
    decide +kernel
  obtain ⟨e, he, hone⟩ := List.mem_map.mp (hshown ▸ List.mem_singleton_self 1)
  obtain ⟨m, hm⟩ := List.length_eq_one_iff.mp hone
  have hmetric : m ∈ Service.shownMetrics (Service.deviceDetail e) :=
    hm ▸ List.mem_singleton_self m
  obtain ⟨hfinite, hnumbers⟩ := hregistry hempty e he
  exact ⟨hempty, ⟨p, hmem, hfields, hline⟩, e, he, hfinite, m, hmetric, hnumbers m hmetric⟩

end Dispatcher

end DeviceHub
