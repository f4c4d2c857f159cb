import DeviceHub.Proofs.Dispatcher.Lines
import DeviceHub.Proofs.Registry
import DeviceHub.Proofs.Throttle.Decision

/-!
# A message that is delivered again

A broker may deliver a message more than once.  All samples of a message have one time, and a sample
that was let through or held back at a time mutes its key at that time.  No later sample of the message
changes that, not even one that prunes the throttle.

* `Throttle.mutes_sift`      after the samples of a message all their keys are muted;
* `Throttle.nodup_keys_sift` so a key is let through once;
* `Inbound.makes_again`      and the message makes no more points;
* `Inbound.learn_again`      nor does the registry learn from it;
* `Dispatcher.redelivery_is_idempotent`  deliveries in a row do what the first one does.
-/

namespace DeviceHub

open Message

namespace Throttle

variable {α : Type} {t : Throttle} {device k : String} {at_ : Int64}

section
variable (device at_)

theorem isEnabled_sift (t : Throttle) (ms : List (String × α)) :
    (t.sift device at_ ms).2.isEnabled = t.isEnabled := by
  induction ms generalizing t with
  | nil => rfl
  | cons m ms ih =>
    rw [sift]
    cases hallow : t.allow device m.1 at_ with
    | mk passes t' =>
      cases passes with
      | false => exact ih t
      | true =>
        have hsame := isEnabled_allow t device m.1 at_
        rw [hallow] at hsame
        exact (ih t').trans hsame

end

variable (henabled : t.isEnabled = true)
include henabled

/-- A sample is suppressed and changes nothing, or it is let through; its key is muted then. -/
theorem sift_cons (m : String × α) (ms : List (String × α)) :
    (t.Mutes (key device m.1) at_ ∧ t.sift device at_ (m :: ms) = t.sift device at_ ms) ∨
    ∃ t', t.allow device m.1 at_ = (true, t') ∧ t'.isEnabled = true ∧
      t'.Mutes (key device m.1) at_ ∧
      t.sift device at_ (m :: ms) = (m :: (t'.sift device at_ ms).1, (t'.sift device at_ ms).2) := by
  have hmutes := mutes_allow henabled device m.1 at_
  have hsame := isEnabled_allow t device m.1 at_
  have hdecided := decided henabled device m.1 at_
  rw [sift]
  cases hallow : t.allow device m.1 at_ with
  | mk passes t' =>
    rw [hallow] at hmutes hsame hdecided
    cases passes with
    | false =>
      cases hdecided
      exact Or.inl ⟨hmutes, rfl⟩
    | true => exact Or.inr ⟨t', rfl, hsame.trans henabled, hmutes, rfl⟩

theorem Mutes.sift (h : t.Mutes k at_) (ms : List (String × α)) :
    (t.sift device at_ ms).2.Mutes k at_ := by
  induction ms generalizing t with
  | nil => exact h
  | cons m ms ih =>
    rcases sift_cons henabled m ms with ⟨-, hsift⟩ | ⟨t', hallow, henabled', -, hsift⟩
    · rw [hsift]
      exact ih henabled h
    · have hkept := h.allow henabled device m.1
      rw [hallow] at hkept
      rw [hsift]
      exact ih henabled' hkept

theorem mutes_sift (ms : List (String × α)) :
    ∀ m ∈ ms, (t.sift device at_ ms).2.Mutes (key device m.1) at_ := by
  induction ms generalizing t with
  | nil =>
    intro m hm
    cases hm
  | cons m ms ih =>
    intro n hn
    rcases sift_cons henabled m ms with ⟨hmutes, hsift⟩ | ⟨t', -, henabled', hmutes, hsift⟩
    all_goals rw [hsift]
    · rcases List.mem_cons.mp hn with rfl | hn
      · exact hmutes.sift henabled ms
      · exact ih henabled n hn
    · rcases List.mem_cons.mp hn with rfl | hn
      · exact hmutes.sift henabled' ms
      · exact ih henabled' n hn

theorem sift_of_mutes {ms : List (String × α)} (h : ∀ m ∈ ms, t.Mutes (key device m.1) at_) :
    t.sift device at_ ms = ([], t) := by
  induction ms with
  | nil => rfl
  | cons m ms ih =>
    rw [sift, (h m List.mem_cons_self).allow_eq henabled]
    exact ih fun n hn => h n (List.mem_cons_of_mem _ hn)

theorem not_mem_sift (h : t.Mutes (key device k) at_) (ms : List (String × α)) :
    k ∉ (t.sift device at_ ms).1.map (·.1) := by
  induction ms generalizing t with
  | nil => exact List.not_mem_nil
  | cons m ms ih =>
    rcases sift_cons henabled m ms with ⟨-, hsift⟩ | ⟨t', hallow, henabled', -, hsift⟩
    · rw [hsift]
      exact ih henabled h
    · have hkept := h.allow henabled device m.1
      rw [hallow] at hkept
      rw [hsift, List.map_cons, List.mem_cons, not_or]
      refine ⟨?_, ih henabled' hkept⟩
      -- a sample of a muted key is not let through
      rintro rfl
      cases (h.allow_eq henabled).symm.trans hallow

theorem nodup_keys_sift (ms : List (String × α)) :
    ((t.sift device at_ ms).1.map (·.1)).Nodup := by
  induction ms generalizing t with
  | nil => exact List.nodup_nil
  | cons m ms ih =>
    rcases sift_cons henabled m ms with ⟨-, hsift⟩ | ⟨t', -, henabled', hmutes, hsift⟩
    · rw [hsift]
      exact ih henabled
    · rw [hsift, List.map_cons, List.nodup_cons]
      exact ⟨not_mem_sift henabled' hmutes ms, ih henabled'⟩

end Throttle

/-! ## The points of a message -/

namespace Point

theorem tagValue?_tag (p : Point) (key k value : String) :
    (p.tag key value).tagValue? k = if key = k then some value else p.tagValue? k :=
  Sorted.find?_insert key k value p.tags

theorem tagValue?_tagUnlessEmpty_of_ne (p : Point) {key k : String} (hk : key ≠ k)
    (value : Option String) : (p.tagUnlessEmpty key value).tagValue? k = p.tagValue? k := by
  cases value with
  | none => rfl
  | some v =>
    unfold tagUnlessEmpty
    simp only
    split
    · rfl
    · rw [tagValue?_tag, if_neg hk]

end Point

theorem tagValue?_metricPoint (e : Envelope) (key : String) (m : Metric) :
    (metricPoint e key m).tagValue? "metric" = some key := by
  unfold metricPoint
  rw [Point.tagValue?_tagUnlessEmpty_of_ne _ (by decide)]
  exact (Point.tagValue?_tag _ "metric" "metric" key).trans (if_pos rfl)

namespace Inbound

theorem makes_again {t : Throttle} (henabled : t.isEnabled = true) (e : Envelope)
    (tel : Telemetry) :
    (Inbound.telemetry e tel).makes ((Inbound.telemetry e tel).makes t).2 =
      ([], ((Inbound.telemetry e tel).makes t).2) := by
  have henabled' : ((Inbound.telemetry e tel).makes t).2.isEnabled = true :=
    (Throttle.isEnabled_sift e.device e.ts t _).trans henabled
  have hsift := Throttle.sift_of_mutes henabled'
    (Throttle.mutes_sift henabled (Dispatcher.namedMetrics tel))
  show (List.map _ (Throttle.sift ..).1, (Throttle.sift ..).2) = _
  rw [hsift]
  rfl

theorem makeAll_again {t : Throttle} (henabled : t.isEnabled = true) (e : Envelope)
    (tel : Telemetry) (now : Int64) (later : List Int64) :
    makeAll t ((now :: later).map fun n => (n, Inbound.telemetry e tel)) =
      (Inbound.telemetry e tel).makes t := by
  have hmakes := makes_again henabled e tel
  rw [List.map_cons, makeAll]
  generalize (Inbound.telemetry e tel).makes t = r at hmakes ⊢
  have hlater : makeAll r.2 (later.map fun n => (n, Inbound.telemetry e tel)) = ([], r.2) := by
    induction later with
    | nil => rfl
    | cons n later ih =>
      rw [List.map_cons, makeAll]
      simp only [hmakes, ih, List.append_nil]
  simp only [hlater, List.append_nil]

/-- The points of telemetry show its metrics under their trimmed keys, no key twice. -/
theorem makes_metrics {t : Throttle} (henabled : t.isEnabled = true) (e : Envelope)
    (tel : Telemetry) :
    (∀ p ∈ ((Inbound.telemetry e tel).makes t).1, ∃ m ∈ tel.metrics,
      p = metricPoint e (Text.trim m.key) m ∧ p.tagValue? "metric" = some (Text.trim m.key)) ∧
    (((Inbound.telemetry e tel).makes t).1.map fun p => p.tagValue? "metric").Nodup := by
  constructor
  · intro p hp
    obtain ⟨m, hm, rfl⟩ := List.mem_map.mp hp
    obtain ⟨hmem, -⟩ := List.mem_filter.mp ((Throttle.sift_sublist ..).subset hm)
    obtain ⟨metric, hmetric, rfl⟩ := List.mem_map.mp hmem
    exact ⟨metric, hmetric, rfl, tagValue?_metricPoint e _ metric⟩
  · have hnodup : ((t.sift e.device e.ts (Dispatcher.namedMetrics tel)).1.map (·.1)).Nodup :=
      Throttle.nodup_keys_sift henabled _
    have hsome := hnodup.map (Option.some_injective String)
    rw [List.map_map] at hsome
    show (List.map _ (List.map _ _)).Nodup
    rw [List.map_map]
    refine (List.map_congr_left fun m _ => ?_) ▸ hsome
    exact (tagValue?_metricPoint e m.1 m.2).symm

/-! ## The registry -/

theorem Reads.learn_again {topic : String} {payload : List UInt8} {m : Inbound}
    (h : Reads topic payload m) (hkind : Topic.Kind.ofTopic topic ≠ .lastWill) (r : Registry)
    (now now' : Int64) : m.learn now' (m.learn now r) = m.learn now r := by
  have hts {e : Envelope} (henvelope : Enveloped payload e) : 0 < e.ts :=
    (Envelope.fault?_eq_none.mp henvelope.valid).2.2
  cases h with
  | telemetry kind envelope body => exact r.telemetry_telemetry now now' _ (hts envelope) _
  | state kind envelope body => exact r.report_report now now' _ (hts envelope) _
  | event kind envelope body => exact r.touch_touch now now' _ (hts envelope) _
  | ack kind envelope body => exact r.touch_touch now now' _ (hts envelope) _
  | configStatus kind envelope => exact r.touch_touch now now' _ (hts envelope) _
  | other kind envelope => rfl
  | lastWill kind named word => exact absurd kind hkind

theorem Reads.learnAll_again {topic : String} {payload : List UInt8} {m : Inbound}
    (h : Reads topic payload m) (hkind : Topic.Kind.ofTopic topic ≠ .lastWill) (r : Registry)
    (now : Int64) (later : List Int64) :
    learnAll r ((now :: later).map fun n => (n, m)) = m.learn now r := by
  show learnAll (m.learn now r) (later.map fun n => (n, m)) = _
  induction later with
  | nil => rfl
  | cons n later ih =>
    show learnAll (m.learn n (m.learn now r)) (later.map fun n => (n, m)) = _
    rw [h.learn_again hkind]
    exact ih

end Inbound

/-! ## Deliveries in a row -/

def deliveries (topic : String) (payload : List UInt8) (nows : List Int64) : List Arrival :=
  nows.map fun now => ⟨now, topic, payload⟩

theorem accepted_deliveries {topic : String} {payload : List UInt8} {m : Inbound}
    (h : Inbound.read topic payload = .ok m) (nows : List Int64) :
    accepted (deliveries topic payload nows) = nows.map fun now => (now, m) := by
  unfold accepted deliveries
  rw [List.filterMap_map, ← List.filterMap_eq_map]
  refine List.filterMap_congr fun now _ => ?_
  show Arrival.accepted? ⟨now, topic, payload⟩ = some (now, m)
  unfold Arrival.accepted?
  rw [h]

theorem accepted_deliveries_of_error {topic : String} {payload : List UInt8} {why : Rejection}
    (h : Inbound.read topic payload = .error why) (nows : List Int64) :
    accepted (deliveries topic payload nows) = [] := by
  refine List.filterMap_eq_nil_iff.mpr fun a ha => ?_
  obtain ⟨now, -, rfl⟩ := List.mem_map.mp ha
  unfold Arrival.accepted?
  rw [h]

namespace Dispatcher

variable {σ : Type}

/-- Telemetry that is delivered any number of times in a row makes the points of its first delivery,
at most one for each trimmed key of a metric, and leaves the throttle as the first delivery does,
when there is an interval to keep.  A message of any kind but a last will, however often it is
delivered in a row, leaves the registry as its first delivery does. -/
theorem redelivery_is_idempotent (s : Sink σ) (d : Dispatcher σ) (topic : String)
    (payload : List UInt8) (now : Int64) (later : List Int64) :
    let once := deliveries topic payload [now]
    let often := deliveries topic payload (now :: later)
    (Topic.Kind.ofTopic topic = .telemetry → 0 < d.throttle.interval →
      d.offered s often = d.offered s once ∧
      (∀ p ∈ d.offered s often, ∃ e tel, Inbound.read topic payload = .ok (.telemetry e tel) ∧
        ∃ m ∈ tel.metrics, p = metricPoint e (Text.trim m.key) m ∧
          p.tagValue? "metric" = some (Text.trim m.key)) ∧
      ((d.offered s often).map fun p => p.tagValue? "metric").Nodup ∧
      (d.run s often).1.throttle = (d.run s once).1.throttle) ∧
    (Topic.Kind.ofTopic topic ≠ .lastWill →
      (d.run s often).1.registry = (d.run s once).1.registry) := by
  intro once often
  rw [offered_eq, offered_eq, (ran s d often).throttle, (ran s d once).throttle,
    (ran s d often).registry, (ran s d once).registry]
  cases hread : Inbound.read topic payload with
  | error why =>
    -- nothing is accepted, however often it comes
    have hnone (nows : List Int64) := accepted_deliveries_of_error hread nows
    rw [show accepted often = [] from hnone _, show accepted once = [] from hnone _]
    exact ⟨fun _ _ => ⟨rfl, nofun, List.nodup_nil, rfl⟩, fun _ => rfl⟩
  | ok m =>
    have hreads := Inbound.read_eq_ok_iff.mp hread
    rw [show accepted often = _ from accepted_deliveries hread (now :: later),
      show accepted once = _ from accepted_deliveries hread [now]]
    constructor
    · intro hkind hinterval
      have henabled : d.throttle.isEnabled = true := decide_eq_true hinterval
      cases hreads with
      | @telemetry e tel kind envelope body =>
        rw [Inbound.makeAll_again henabled, Inbound.makeAll_again henabled]
        obtain ⟨hmetrics, hnodup⟩ := Inbound.makes_metrics henabled e tel
        exact ⟨rfl, fun p hp => ⟨e, tel, rfl, hmetrics p hp⟩, hnodup, rfl⟩
      | state kind | event kind | ack kind | configStatus kind | other kind | lastWill kind =>
        cases kind.symm.trans hkind
    · intro hkind
      rw [hreads.learnAll_again hkind, hreads.learnAll_again hkind]

/-- Three deliveries of two samples of one key and one of another, under a throttle that prunes its
entries for every new key. -/
theorem redelivery_is_idempotent_crowded :
    let s : Sink Unit := ⟨fun x _ => (x, none)⟩
    let d : Dispatcher Unit := { sink := (), throttle := (Throttle.new 1000).withCapacity 1 }
    let topic := "v1/dev/d/telemetry"
    let payload := Text.Utf8.encode ("\x7b\"v\":1,\"deviceId\":\"d\",\"ts\":5000,\"metrics\":" ++
      "[\x7b\"key\":\"a\"\x7d,\x7b\"key\":\" a\"\x7d,\x7b\"key\":\"b\"\x7d]\x7d")
    Topic.Kind.ofTopic topic = .telemetry ∧ 0 < d.throttle.interval ∧
      (d.offered s (deliveries topic payload [7, 8, 9])).map (·.tagValue? "metric") =
        [some "a", some "b"] ∧
      d.offered s (deliveries topic payload [7, 8, 9]) =
        d.offered s (deliveries topic payload [7]) ∧
      (d.run s (deliveries topic payload [7, 8, 9])).1.throttle =
        (d.run s (deliveries topic payload [7])).1.throttle ∧
      (d.run s (deliveries topic payload [7, 8, 9])).1.registry =
        (d.run s (deliveries topic payload [7])).1.registry := by
  intro s d topic payload
  have hkind : Topic.Kind.ofTopic topic = .telemetry := by cbv
  have hinterval : 0 < d.throttle.interval := by decide
  have hpoints : (d.offered s (deliveries topic payload [7, 8, 9])).map (·.tagValue? "metric") =
      [some "a", some "b"] := by
    rw [show payload = _ from Text.Utf8.encode_eq _]
    decide +kernel
  obtain ⟨htelemetry, hregistry⟩ := redelivery_is_idempotent s d topic payload 7 [8, 9]
  obtain ⟨hoffered, -, -, hthrottle⟩ := htelemetry hkind hinterval
  have hother : Topic.Kind.ofTopic topic ≠ .lastWill := by
    rw [hkind]
    decide
  exact ⟨hkind, hinterval, hpoints, hoffered, hthrottle, hregistry hother⟩

end Dispatcher

end DeviceHub
