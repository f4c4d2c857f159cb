import DeviceHub.Proofs.Dispatcher.Outcome

/-!
# What one message does

The points that a message makes depend on the throttle only, and what it does to the registry on the
registry only.  The sink sees the points one after the other, and no answer of it changes anything
but the counters of written and refused points.

* `Throttle.sift`      the samples of a message that a throttle lets through;
* `Inbound.makes`      the points of a message under a throttle, and the throttle after it;
* `Inbound.sampled`    how many points a message makes when nothing is suppressed;
* `Inbound.learn`      the registry after a message;
* `Sink.feed`, `Sink.taken`  a sink after points were offered to it, and how many it took;
* `Dispatcher.Sampled` what samples do to a dispatcher;
* `Dispatcher.took`    the dispatcher after a message, part by part;
* `Dispatcher.onMessage_of_error`, `onMessage_of_ok`  a message that is rejected, or taken.
-/

namespace DeviceHub

open Message

/-! ## The samples of a message -/

/-- The samples of a device at one time that a throttle lets through, one after the other, and the
throttle after them. -/
def Throttle.sift {α : Type} (device : String) (at_ : Int64) :
    Throttle → List (String × α) → List (String × α) × Throttle
  | t, [] => ([], t)
  | t, m :: ms =>
    match t.allow device m.1 at_ with
    | (false, _) => sift device at_ t ms
    | (true, t) =>
      let r := sift device at_ t ms
      (m :: r.1, r.2)

namespace Inbound

/-- the points that a message makes under a throttle, and the throttle after it -/
def makes (t : Throttle) : Inbound → List Point × Throttle
  | .telemetry e tel =>
    let r := t.sift e.device e.ts (Dispatcher.namedMetrics tel)
    (r.1.map fun m => metricPoint e m.1 m.2, r.2)
  | .state e r => ([statePoint e r], t)
  | .event e ev => ([eventPoint e ev], t)
  | _ => ([], t)

/-- the number of points that a message makes when nothing is suppressed -/
def sampled : Inbound → Nat
  | .telemetry _ tel => (Dispatcher.namedMetrics tel).length
  | .state .. => 1
  | .event .. => 1
  | _ => 0

/-- the registry after a message -/
def learn (now : Int64) (r : Registry) : Inbound → Registry
  | .telemetry e tel => r.telemetry now e.device e.ts
      ((Dispatcher.namedMetrics tel).map fun m => (m.1, m.2.value))
  | .state e rep => r.report now e.device (Dispatcher.statusOf rep) e.ts
  | .event e _ => r.touch now e.device e.ts Topic.Kind.event.name
  | .ack e _ => r.touch now e.device e.ts Topic.Kind.ack.name
  | .configStatus e => r.touch now e.device e.ts Topic.Kind.configStatus.name
  | .other _ => r
  | .lastWill device online =>
    if online then r.touch now device now Topic.Kind.lastWill.name
    else r.offline now device now Topic.Kind.lastWill.name

end Inbound

/-! ## The sink and the counters -/

namespace Sink

variable {σ : Type}

def feed (s : Sink σ) (x : σ) (ps : List Point) : σ := ps.foldl (fun x p => (s.write x p).1) x

theorem feed_append (s : Sink σ) (x : σ) (ps qs : List Point) :
    s.feed x (ps ++ qs) = s.feed (s.feed x ps) qs := List.foldl_append

/-- how many points a sink takes when they are offered to it, one after the other -/
def taken (s : Sink σ) : σ → List Point → Nat
  | _, [] => 0
  | x, p :: ps => (s.write x p).2.isNone.toNat + taken s (s.write x p).1 ps

theorem taken_append (s : Sink σ) (x : σ) (ps qs : List Point) :
    s.taken x (ps ++ qs) = s.taken x ps + s.taken (s.feed x ps) qs := by
  induction ps generalizing x with
  | nil => exact (Nat.zero_add _).symm
  | cons p ps ih =>
    rw [List.cons_append, taken, ih, taken, Nat.add_assoc]
    rfl

end Sink

attribute [ext] Stats Dispatcher

/-- the count of offered points, refused or not -/
def Stats.offered (s : Stats) : UInt64 := s.written + s.refused

/-- the count of points that were offered or suppressed -/
def Stats.sampled (s : Stats) : UInt64 := s.offered + s.suppressed

theorem Stats.eq_of_counts {s t : Stats} (received : s.received = t.received)
    (rejected : s.rejected = t.rejected) (written : s.written = t.written)
    (offered : s.offered = t.offered) (sampled : s.sampled = t.sampled) (acks : s.acks = t.acks) :
    s = t := by
  have hrefused : s.refused = t.refused := by
    unfold Stats.offered at offered
    rw [written] at offered
    exact (UInt64.add_right_inj _).mp offered
  have hsuppressed : s.suppressed = t.suppressed := by
    unfold Stats.sampled at sampled
    rw [offered] at sampled
    exact (UInt64.add_right_inj _).mp sampled
  exact Stats.ext received rejected written hsuppressed hrefused acks

theorem add_ofNat_add (c : UInt64) (m n : Nat) : c + .ofNat (m + n) = c + .ofNat m + .ofNat n := by
  rw [UInt64.ofNat_add, UInt64.add_assoc]

namespace Dispatcher

variable {σ : Type} {s : Sink σ}

/-! ## Samples -/

/-- What `n` samples do to a dispatcher that leave it with the throttle `t`: the points `ps` are
offered to its sink.  Nothing else changes but the counters of points. -/
structure Sampled (s : Sink σ) (n : Nat) (ps : List Point) (t : Throttle) (d d' : Dispatcher σ) :
    Prop where
  sink : d'.sink = s.feed d.sink ps
  throttle : d'.throttle = t
  registry : d'.registry = d.registry
  received : d'.stats.received = d.stats.received
  rejected : d'.stats.rejected = d.stats.rejected
  acks : d'.stats.acks = d.stats.acks
  written : d'.stats.written = d.stats.written + .ofNat (s.taken d.sink ps)
  offered : d'.stats.offered = d.stats.offered + .ofNat ps.length
  sampled : d'.stats.sampled = d.stats.sampled + .ofNat n

theorem Sampled.none (d : Dispatcher σ) : Sampled s 0 [] d.throttle d d where
  sink := rfl
  throttle := rfl
  registry := rfl
  received := rfl
  rejected := rfl
  acks := rfl
  written := (UInt64.add_zero _).symm
  offered := (UInt64.add_zero _).symm
  sampled := (UInt64.add_zero _).symm

theorem Sampled.trans {n m : Nat} {ps qs : List Point} {t t' : Throttle}
    {d d' d'' : Dispatcher σ} (h : Sampled s n ps t d d') (h' : Sampled s m qs t' d' d'') :
    Sampled s (n + m) (ps ++ qs) t' d d'' where
  sink := by rw [h'.sink, h.sink, Sink.feed_append]
  throttle := h'.throttle
  registry := h'.registry.trans h.registry
  received := h'.received.trans h.received
  rejected := h'.rejected.trans h.rejected
  acks := h'.acks.trans h.acks
  written := by rw [h'.written, h.written, h.sink, Sink.taken_append, add_ofNat_add]
  offered := by rw [h'.offered, h.offered, List.length_append, add_ofNat_add]
  sampled := by rw [h'.sampled, h.sampled, add_ofNat_add]

theorem sampled_offer (d : Dispatcher σ) (p : Point) :
    Sampled s 1 [p] d.throttle d (d.offer s p) := by
  -- one more point was offered, and none was suppressed
  have hcount {w r : UInt64} (h : w + r = d.stats.offered + 1) :
      w + r + d.stats.suppressed = d.stats.sampled + 1 := by
    unfold Stats.sampled
    rw [h, UInt64.add_assoc, UInt64.add_comm 1, ← UInt64.add_assoc]
  cases hwrite : s.write d.sink p with
  | mk x answer =>
    have hsink : x = s.feed d.sink [p] := by
      show x = (s.write d.sink p).1
      rw [hwrite]
    have htaken : s.taken d.sink [p] = answer.isNone.toNat := by
      show (s.write d.sink p).2.isNone.toNat + 0 = _
      rw [hwrite, Nat.add_zero]
    unfold offer
    rw [hwrite]
    cases answer with
    | none =>
      have hoffered : d.stats.written + 1 + d.stats.refused = d.stats.offered + 1 := by
        unfold Stats.offered
        rw [UInt64.add_assoc, UInt64.add_comm 1, ← UInt64.add_assoc]
      exact ⟨hsink, rfl, rfl, rfl, rfl, rfl, by rw [htaken]; rfl, hoffered, hcount hoffered⟩
    | some e =>
      have hoffered : d.stats.written + (d.stats.refused + 1) = d.stats.offered + 1 :=
        (UInt64.add_assoc ..).symm
      have hwritten : d.stats.written = d.stats.written + .ofNat (s.taken d.sink [p]) := by
        rw [htaken]
        exact (UInt64.add_zero _).symm
      exact ⟨hsink, rfl, rfl, rfl, rfl, rfl, hwritten, hoffered, hcount hoffered⟩

theorem sampled_takeMetrics (e : Envelope) (d : Dispatcher σ) (ms : List (String × Metric)) :
    Sampled s ms.length ((d.throttle.sift e.device e.ts ms).1.map fun m => metricPoint e m.1 m.2)
      (d.throttle.sift e.device e.ts ms).2 d (ms.foldl (takeMetric s e) d) := by
  induction ms generalizing d with
  | nil => exact Sampled.none d
  | cons m ms ih =>
    rw [List.foldl_cons, List.length_cons, Nat.add_comm, Throttle.sift]
    cases hallow : d.throttle.allow e.device m.1 e.ts with
    | mk pass t =>
      cases pass with
      | false =>
        -- nothing but a counter changes, so the other samples meet the same throttle
        have hmetric : takeMetric s e d m =
            { d with stats := { d.stats with suppressed := d.stats.suppressed + 1 } } := by
          unfold takeMetric
          rw [hallow]
        have hstep : Sampled s 1 [] d.throttle d (takeMetric s e d m) := by
          rw [hmetric]
          exact ⟨rfl, rfl, rfl, rfl, rfl, rfl, (UInt64.add_zero _).symm, (UInt64.add_zero _).symm,
            (UInt64.add_assoc ..).symm⟩
        have hrest := ih (takeMetric s e d m)
        rw [hstep.throttle] at hrest
        exact hstep.trans hrest
      | true =>
        have hmetric : takeMetric s e d m =
            { d with throttle := t }.offer s (metricPoint e m.1 m.2) := by
          unfold takeMetric
          rw [hallow]
        have hoffer := sampled_offer (s := s) { d with throttle := t } (metricPoint e m.1 m.2)
        have hstep : Sampled s 1 [metricPoint e m.1 m.2] t d (takeMetric s e d m) := by
          rw [hmetric]
          -- the point is offered after the throttle has changed, which the sink does not see
          exact { hoffer with }
        have hrest := ih (takeMetric s e d m)
        rw [hstep.throttle] at hrest
        exact hstep.trans hrest

/-! ## A message -/

/-- The dispatcher `d'` is `d` after it took a message, when the sink answers as it will. -/
structure Took (s : Sink σ) (now : Int64) (m : Inbound) (d d' : Dispatcher σ) : Prop where
  sink : d'.sink = s.feed d.sink (m.makes d.throttle).1
  throttle : d'.throttle = (m.makes d.throttle).2
  registry : d'.registry = m.learn now d.registry
  received : d'.stats.received = d.stats.received
  rejected : d'.stats.rejected = d.stats.rejected
  acks : d'.stats.acks = d.stats.acks + .ofNat m.ack?.toList.length
  written : d'.stats.written = d.stats.written + .ofNat (s.taken d.sink (m.makes d.throttle).1)
  offered : d'.stats.offered = d.stats.offered + .ofNat (m.makes d.throttle).1.length
  sampled : d'.stats.sampled = d.stats.sampled + .ofNat m.sampled

def learned (now : Int64) (m : Inbound) (d : Dispatcher σ) : Dispatcher σ :=
  { d with registry := m.learn now d.registry }

theorem Sampled.took {now : Int64} {m : Inbound} {d d' : Dispatcher σ}
    (h : Sampled s m.sampled (m.makes d.throttle).1 (m.makes d.throttle).2 (d.learned now m) d')
    (hack : m.ack? = Option.none) : Took s now m d d' :=
  { h with
    acks := by
      rw [hack, h.acks]
      exact (UInt64.add_zero _).symm }

theorem took (s : Sink σ) (now : Int64) (d : Dispatcher σ) (m : Inbound) :
    Took s now m d (d.take s now m).1 := by
  have hnone : Sampled s 0 [] d.throttle (d.learned now m) (d.learned now m) :=
    Sampled.none (d.learned now m)
  cases m with
  | telemetry e tel => exact Sampled.took (sampled_takeMetrics e (d.learned now _) _) rfl
  | state e r => exact Sampled.took (sampled_offer (d.learned now _) _) rfl
  | event e ev => exact Sampled.took (sampled_offer (d.learned now _) _) rfl
  | ack e a =>
    exact ⟨rfl, rfl, rfl, rfl, rfl, rfl, (UInt64.add_zero _).symm, (UInt64.add_zero _).symm,
      (UInt64.add_zero _).symm⟩
  | configStatus e => exact hnone.took rfl
  | other e => exact hnone.took rfl
  | lastWill device online => exact hnone.took rfl

/-! ## A message that is rejected or read -/

section
variable {topic : String} {payload : List UInt8} (now : Int64) (d : Dispatcher σ)

theorem onMessage_of_error {why : Rejection} (h : Inbound.read topic payload = .error why) :
    d.onMessage s now topic payload = (d.counted true, .rejected why) := by
  unfold onMessage
  rw [h]

theorem onMessage_of_ok {m : Inbound} (h : Inbound.read topic payload = .ok m) :
    (d.onMessage s now topic payload).1 = ((d.counted false).take s now m).1 := by
  unfold onMessage
  rw [h]

end

end Dispatcher

end DeviceHub
