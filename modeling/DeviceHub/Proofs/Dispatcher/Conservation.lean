import DeviceHub.Proofs.Dispatcher.Run

/-!
# Every point is accounted for, whatever the sink refuses

* `Inbound.metrics`, `isState`, `isEvent`, `isAck`   what a message contributes;
* `Inbound.sum_sampled`        how many points messages make when nothing is suppressed;
* `Dispatcher.Alike`           dispatchers that differ in their sinks only;
* `Dispatcher.points_are_accounted_for`  two sinks make no difference, and the counters add up.
-/

namespace DeviceHub

open Message

theorem Text.trim_eq_empty_iff (s : String) : Text.trim s = "" ↔ Text.isBlank s = true := by
  unfold Text.trim Text.isBlank
  rw [List.isEmpty_iff, String.ofList_eq_empty_iff]

namespace Inbound

def metrics : Inbound → List Metric
  | .telemetry _ tel => tel.metrics
  | _ => []

def isState : Inbound → Bool
  | .state .. => true
  | _ => false

def isEvent : Inbound → Bool
  | .event .. => true
  | _ => false

def isAck : Inbound → Bool
  | .ack .. => true
  | _ => false

theorem isSome_ack? (m : Inbound) : m.ack?.isSome = m.isAck := by
  cases m <;> rfl

theorem length_namedMetrics (tel : Telemetry) : (Dispatcher.namedMetrics tel).length =
    tel.metrics.countP fun m => !Text.isBlank m.key := by
  unfold Dispatcher.namedMetrics
  rw [← List.countP_eq_length_filter, List.countP_map]
  refine List.countP_congr fun m _ => ?_
  simp [Text.trim_eq_empty_iff]

theorem sampled_eq (m : Inbound) : m.sampled =
    (m.metrics.countP fun k => !Text.isBlank k.key) + m.isState.toNat + m.isEvent.toNat := by
  cases m with
  | telemetry e tel => exact length_namedMetrics tel
  | _ => rfl

/-- Messages make a point for every metric with a key, and one for every state and event. -/
theorem sum_sampled (ms : List (Int64 × Inbound)) : (ms.map (·.2.sampled)).sum =
    ((ms.flatMap (·.2.metrics)).countP fun k => !Text.isBlank k.key) +
      ms.countP (·.2.isState) + ms.countP (·.2.isEvent) := by
  induction ms with
  | nil => rfl
  | cons m ms ih =>
    rw [List.map_cons, List.sum_cons, ih, sampled_eq, List.flatMap_cons, List.countP_append,
      List.countP_cons, List.countP_cons]
    cases m.2.isState <;> cases m.2.isEvent <;> simp <;> omega

end Inbound

namespace Dispatcher

variable {σ τ : Type}

/-- Two dispatchers differ in nothing but their sinks and in what these took of the points. -/
structure Alike (d : Dispatcher σ) (d' : Dispatcher τ) : Prop where
  throttle : d.throttle = d'.throttle
  registry : d.registry = d'.registry
  received : d.stats.received = d'.stats.received
  rejected : d.stats.rejected = d'.stats.rejected
  suppressed : d.stats.suppressed = d'.stats.suppressed
  acks : d.stats.acks = d'.stats.acks

/-- What is not suppressed is offered. -/
theorem Ran.suppressed {s : Sink σ} {as : List Arrival} {d d' : Dispatcher σ} (h : Ran s as d d') :
    .ofNat (Inbound.makeAll d.throttle (accepted as)).1.length + d'.stats.suppressed =
      d.stats.suppressed + .ofNat ((accepted as).map (·.2.sampled)).sum := by
  -- what was offered is part of both sums
  have hsampled := h.sampled
  unfold Stats.sampled at hsampled
  rw [h.offered, UInt64.add_assoc, UInt64.add_assoc] at hsampled
  exact (UInt64.add_right_inj _).mp hsampled

theorem Ran.alike {s : Sink σ} {s' : Sink τ} {as : List Arrival} {d e : Dispatcher σ}
    {d' e' : Dispatcher τ} (h : Ran s as d e) (h' : Ran s' as d' e') (hd : Alike d d') :
    Alike e e' where
  throttle := by rw [h.throttle, h'.throttle, hd.throttle]
  registry := by rw [h.registry, h'.registry, hd.registry]
  received := by rw [h.received, h'.received, hd.received]
  rejected := by rw [h.rejected, h'.rejected, hd.rejected]
  suppressed := by
    have hsum := h.suppressed
    rw [hd.suppressed, ← h'.suppressed, hd.throttle] at hsum
    exact (UInt64.add_right_inj _).mp hsum
  acks := by rw [h.acks, h'.acks, hd.acks]

theorem alike_withSink (d : Dispatcher σ) (x : τ) : Alike d (d.withSink x) :=
  ⟨rfl, rfl, rfl, rfl, rfl, rfl⟩

/-- Whatever sink takes the place of a dispatcher's own one, and whatever it refuses, the same points
are offered to it, and the throttle, the registry, the forwarded acknowledgements and the counters
of received and rejected messages, suppressed points and acknowledgements come out the same.  Every
message is counted as received, every offered point as written or refused, every acknowledgement
that is read as forwarded; and the points that are offered or suppressed are one for every metric
with a key that is not blank in the telemetry that is read, one for every state and one for every
event.  All counts are modulo 2 ^ 64. -/
theorem points_are_accounted_for (s : Sink σ) (d : Dispatcher σ) (s' : Sink τ) (x : τ)
    (as : List Arrival) :
    (Alike (d.run s as).1 ((d.withSink x).run s' as).1 ∧
      forwarded (d.run s as).2 = forwarded ((d.withSink x).run s' as).2 ∧
      d.offered s as = (d.withSink x).offered s' as) ∧
    (d.run s as).1.stats.received = d.stats.received + .ofNat as.length ∧
    (d.run s as).1.stats.written + (d.run s as).1.stats.refused =
      d.stats.written + d.stats.refused + .ofNat (d.offered s as).length ∧
    .ofNat (d.offered s as).length + (d.run s as).1.stats.suppressed =
      d.stats.suppressed +
        .ofNat ((((accepted as).flatMap (·.2.metrics)).countP fun k => !Text.isBlank k.key) +
          (accepted as).countP (·.2.isState) + (accepted as).countP (·.2.isEvent)) ∧
    (d.run s as).1.stats.acks = d.stats.acks + .ofNat ((accepted as).countP (·.2.isAck)) := by
  have hrun := ran s d as
  have hrun' := ran s' (d.withSink x) as
  refine ⟨⟨hrun.alike hrun' (alike_withSink d x), ?_, ?_⟩, hrun.received, ?_, ?_, ?_⟩
  · rw [forwarded_run, forwarded_run]
  · rw [offered_eq, offered_eq]
    rfl
  · rw [offered_eq]
    exact hrun.offered
  · rw [offered_eq, ← Inbound.sum_sampled]
    exact hrun.suppressed
  · rw [hrun.acks, List.length_filterMap_eq_countP]
    simp only [Inbound.isSome_ack?]

end Dispatcher

end DeviceHub
