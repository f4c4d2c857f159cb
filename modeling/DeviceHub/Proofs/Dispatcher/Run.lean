import DeviceHub.Proofs.Dispatcher.Effect

/-!
# Runs of the dispatcher

A run takes in messages one after the other.

* `Arrival`                 a message and the time it arrives at;
* `Dispatcher.run`          the dispatcher after messages, and what came of them;
* `accepted`                the messages of a run that are read, with their times;
* `Inbound.makeAll`, `Inbound.learnAll`  what messages make and teach, one after the other;
* `Dispatcher.ran`          the dispatcher after a run, part by part;
* `Sink.recording`          a sink that also keeps what is offered to it;
* `Dispatcher.run_recording`  it does not change the run;
* `Dispatcher.offered_eq`   what it keeps is what the messages make.
-/

namespace DeviceHub

open Message

/-- a message and the time it arrives at -/
structure Arrival where
  now : Int64
  topic : String
  payload : List UInt8

def Arrival.accepted? (a : Arrival) : Option (Int64 × Inbound) :=
  match Inbound.read a.topic a.payload with
  | .ok m => some (a.now, m)
  | .error _ => none

def accepted (as : List Arrival) : List (Int64 × Inbound) := as.filterMap Arrival.accepted?

theorem accepted_cons_none {a : Arrival} (h : a.accepted? = none) (as : List Arrival) :
    accepted (a :: as) = accepted as := List.filterMap_cons_none h

theorem accepted_cons_some {a : Arrival} {m : Int64 × Inbound} (h : a.accepted? = some m)
    (as : List Arrival) : accepted (a :: as) = m :: accepted as := List.filterMap_cons_some h

namespace Inbound

/-- the points that messages make one after the other, and the throttle after them -/
def makeAll (t : Throttle) : List (Int64 × Inbound) → List Point × Throttle
  | [] => ([], t)
  | m :: ms =>
    let r := m.2.makes t
    let q := makeAll r.2 ms
    (r.1 ++ q.1, q.2)

def learnAll (r : Registry) (ms : List (Int64 × Inbound)) : Registry :=
  ms.foldl (fun r m => m.2.learn m.1 r) r

end Inbound

namespace Dispatcher

variable {σ : Type} {s : Sink σ}

def run (s : Sink σ) (d : Dispatcher σ) : List Arrival → Dispatcher σ × List Outcome
  | [] => (d, [])
  | a :: as =>
    let r := d.onMessage s a.now a.topic a.payload
    let q := run s r.1 as
    (q.1, r.2 :: q.2)

def forwarded (os : List Outcome) : List Ack := os.filterMap Outcome.ack?

/-! ## A run, part by part -/

/-- The dispatcher `d'` is `d` after a run, when the sink answers as it will. -/
structure Ran (s : Sink σ) (as : List Arrival) (d d' : Dispatcher σ) : Prop where
  sink : d'.sink = s.feed d.sink (Inbound.makeAll d.throttle (accepted as)).1
  throttle : d'.throttle = (Inbound.makeAll d.throttle (accepted as)).2
  registry : d'.registry = Inbound.learnAll d.registry (accepted as)
  received : d'.stats.received = d.stats.received + .ofNat as.length
  rejected : d'.stats.rejected =
    d.stats.rejected + .ofNat (as.countP fun a => a.accepted?.isNone)
  acks : d'.stats.acks = d.stats.acks + .ofNat ((accepted as).filterMap (·.2.ack?)).length
  written : d'.stats.written =
    d.stats.written + .ofNat (s.taken d.sink (Inbound.makeAll d.throttle (accepted as)).1)
  offered : d'.stats.offered =
    d.stats.offered + .ofNat (Inbound.makeAll d.throttle (accepted as)).1.length
  sampled : d'.stats.sampled = d.stats.sampled + .ofNat ((accepted as).map (·.2.sampled)).sum

theorem Ran.none (d : Dispatcher σ) : Ran s [] d d where
  sink := rfl
  throttle := rfl
  registry := rfl
  received := (UInt64.add_zero _).symm
  rejected := (UInt64.add_zero _).symm
  acks := (UInt64.add_zero _).symm
  written := (UInt64.add_zero _).symm
  offered := (UInt64.add_zero _).symm
  sampled := (UInt64.add_zero _).symm

theorem Ran.rejected_cons {a : Arrival} {as : List Arrival} {d d' : Dispatcher σ}
    (ha : a.accepted? = Option.none) (h : Ran s as (d.counted true) d') :
    Ran s (a :: as) d d' where
  sink := by
    rw [accepted_cons_none ha, h.sink]
    rfl
  throttle := by
    rw [accepted_cons_none ha, h.throttle]
    rfl
  registry := by
    rw [accepted_cons_none ha, h.registry]
    rfl
  received := by
    rw [h.received, List.length_cons, Nat.add_comm, add_ofNat_add]
    rfl
  rejected := by
    rw [h.rejected, List.countP_cons_of_pos (by rw [ha]; rfl), Nat.add_comm, add_ofNat_add]
    rfl
  acks := by
    rw [accepted_cons_none ha, h.acks]
    rfl
  written := by
    rw [accepted_cons_none ha, h.written]
    rfl
  offered := by
    rw [accepted_cons_none ha, h.offered]
    rfl
  sampled := by
    rw [accepted_cons_none ha, h.sampled]
    rfl

theorem length_acks_cons (m : Int64 × Inbound) (ms : List (Int64 × Inbound)) :
    ((m :: ms).filterMap (·.2.ack?)).length =
      m.2.ack?.toList.length + (ms.filterMap (·.2.ack?)).length := by
  rw [List.filterMap_cons]
  cases m.2.ack? with
  | none => exact (Nat.zero_add _).symm
  | some b => exact Nat.add_comm _ 1

theorem Ran.accepted_cons {a : Arrival} {as : List Arrival} {m : Inbound} {d d₁ d' : Dispatcher σ}
    (ha : a.accepted? = some (a.now, m)) (ht : Took s a.now m (d.counted false) d₁)
    (h : Ran s as d₁ d') : Ran s (a :: as) d d' where
  sink := by
    rw [accepted_cons_some ha, h.sink, ht.sink, ht.throttle, ← Sink.feed_append]
    rfl
  throttle := by
    rw [accepted_cons_some ha, h.throttle, ht.throttle]
    rfl
  registry := by
    rw [accepted_cons_some ha, h.registry, ht.registry]
    rfl
  received := by
    rw [h.received, ht.received, List.length_cons, Nat.add_comm, add_ofNat_add]
    rfl
  rejected := by
    rw [h.rejected, ht.rejected, List.countP_cons_of_neg (by rw [ha]; simp)]
    rfl
  acks := by
    rw [accepted_cons_some ha, h.acks, ht.acks, ← add_ofNat_add, length_acks_cons]
    rfl
  written := by
    rw [accepted_cons_some ha, h.written, ht.written, ht.sink, ht.throttle, ← add_ofNat_add,
      ← Sink.taken_append]
    rfl
  offered := by
    rw [accepted_cons_some ha, h.offered, ht.offered, ht.throttle, ← add_ofNat_add,
      ← List.length_append]
    rfl
  sampled := by
    rw [accepted_cons_some ha, h.sampled, ht.sampled, ← add_ofNat_add]
    rfl

theorem ran (s : Sink σ) (d : Dispatcher σ) (as : List Arrival) : Ran s as d (d.run s as).1 := by
  induction as generalizing d with
  | nil => exact Ran.none d
  | cons a as ih =>
    have hrest : Ran s as (d.onMessage s a.now a.topic a.payload).1 (d.run s (a :: as)).1 := ih _
    cases hread : Inbound.read a.topic a.payload with
    | error why =>
      rw [onMessage_of_error a.now d hread] at hrest
      exact hrest.rejected_cons (by unfold Arrival.accepted?; rw [hread])
    | ok m =>
      rw [onMessage_of_ok a.now d hread] at hrest
      exact hrest.accepted_cons (by unfold Arrival.accepted?; rw [hread]) (took s a.now _ m)

theorem forwarded_run (s : Sink σ) (d : Dispatcher σ) (as : List Arrival) :
    forwarded (d.run s as).2 = (accepted as).filterMap (·.2.ack?) := by
  induction as generalizing d with
  | nil => rfl
  | cons a as ih =>
    have hrun : forwarded (d.run s (a :: as)).2 =
        (outcomeOf a.topic a.payload).ack?.toList ++ (accepted as).filterMap (·.2.ack?) := by
      rw [← ih (d.onMessage s a.now a.topic a.payload).1, ← onMessage_snd s a.now d]
      unfold forwarded
      rw [run, List.filterMap_cons]
      cases (d.onMessage s a.now a.topic a.payload).2.ack? <;> rfl
    rw [hrun]
    unfold outcomeOf accepted
    rw [List.filterMap_cons]
    unfold Arrival.accepted?
    cases Inbound.read a.topic a.payload with
    | error why => rfl
    | ok m =>
      simp only [Outcome.ack?, List.filterMap_cons]
      cases m.ack? <;> rfl

end Dispatcher

/-! ## What a sink is offered -/

/-- a sink that also keeps what is offered to it -/
def Sink.recording {σ : Type} (s : Sink σ) : Sink (σ × List Point) where
  write x p := (((s.write x.1 p).1, x.2 ++ [p]), (s.write x.1 p).2)

theorem Sink.feed_recording {σ : Type} (s : Sink σ) (x : σ) (log ps : List Point) :
    s.recording.feed (x, log) ps = (s.feed x ps, log ++ ps) := by
  induction ps generalizing x log with
  | nil =>
    rw [List.append_nil]
    rfl
  | cons p ps ih =>
    have hstep : s.recording.feed (x, log) (p :: ps) =
        s.recording.feed ((s.write x p).1, log ++ [p]) ps := rfl
    rw [hstep, ih, List.append_assoc]
    rfl

theorem Sink.taken_recording {σ : Type} (s : Sink σ) (x : σ) (log ps : List Point) :
    s.recording.taken (x, log) ps = s.taken x ps := by
  induction ps generalizing x log with
  | nil => rfl
  | cons p ps ih => exact congrArg ((s.write x p).2.isNone.toNat + ·) (ih _ _)

namespace Dispatcher

variable {σ τ : Type}

def withSink (d : Dispatcher σ) (x : τ) : Dispatcher τ := { d with sink := x }

/-- the points that are offered to the sink in a run -/
def offered (s : Sink σ) (d : Dispatcher σ) (as : List Arrival) : List Point :=
  ((d.withSink (d.sink, [])).run s.recording as).1.sink.2

theorem offered_eq (s : Sink σ) (d : Dispatcher σ) (as : List Arrival) :
    d.offered s as = (Inbound.makeAll d.throttle (accepted as)).1 := by
  have hsink := (ran s.recording (d.withSink (d.sink, [])) as).sink
  unfold offered
  rw [hsink]
  show (s.recording.feed (d.sink, []) _).2 = _
  rw [Sink.feed_recording]
  rfl

/-- The run that is recorded is the run itself. -/
theorem run_recording (s : Sink σ) (d : Dispatcher σ) (as : List Arrival) :
    let r := ((d.withSink (d.sink, [])).run s.recording as).1
    r.withSink r.sink.1 = (d.run s as).1 := by
  intro r
  -- `Ran` leaves nothing open: the parts of both runs are the same functions of the messages
  have hrun := ran s d as
  have hrecorded : Ran s.recording as (d.withSink (d.sink, [])) r := ran s.recording _ as
  have hsink : r.sink = _ := hrecorded.sink.trans (Sink.feed_recording s d.sink [] _)
  have hthrottle : r.throttle = (d.run s as).1.throttle :=
    hrecorded.throttle.trans hrun.throttle.symm
  have hregistry : r.registry = (d.run s as).1.registry :=
    hrecorded.registry.trans hrun.registry.symm
  have hwritten : r.stats.written = (d.run s as).1.stats.written := by
    rw [hrecorded.written, hrun.written]
    exact congrArg (d.stats.written + .ofNat ·) (Sink.taken_recording s d.sink [] _)
  have hstats : r.stats = (d.run s as).1.stats :=
    Stats.eq_of_counts (hrecorded.received.trans hrun.received.symm)
      (hrecorded.rejected.trans hrun.rejected.symm) hwritten
      (hrecorded.offered.trans hrun.offered.symm) (hrecorded.sampled.trans hrun.sampled.symm)
      (hrecorded.acks.trans hrun.acks.symm)
  refine Dispatcher.ext ?_ hthrottle hregistry hstats
  show Prod.fst _ = _
  rw [hsink, hrun.sink]
  rfl

end Dispatcher

end DeviceHub
