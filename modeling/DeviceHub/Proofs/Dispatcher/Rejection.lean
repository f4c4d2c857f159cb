import DeviceHub.Proofs.Dispatcher.Run
import DeviceHub.Proofs.Message.Reading
import DeviceHub.Proofs.Topic

/-!
# A message that is rejected does nothing

* `Inbound.Unacceptable`       what is wrong with a message;
* `Inbound.unacceptable_iff`   a message is read unless something is wrong with it;
* `Dispatcher.rejections_are_no_ops`  such a message changes two counters, and leaving it out of a run
                               changes nothing else.
-/

namespace DeviceHub

open Message

namespace Inbound

def Undecodable {α : Type} (r : Json.Record α) (payload : List UInt8) : Prop :=
  ∀ a, r.codec.decode payload ≠ .ok a

def BadEnvelope (payload : List UInt8) : Prop :=
  Undecodable Envelope.record payload ∨
    ∃ e, Envelope.record.codec.decode payload = .ok e ∧
      (e.version < 1 ∨ Text.isBlank e.device = true ∨ e.ts ≤ 0)

/-- Something is wrong with a payload as the body of its topic's kind. -/
def BadBody (topic : String) (payload : List UInt8) : Prop :=
  (Topic.EndsIn topic "telemetry" ∧ Undecodable Telemetry.record payload) ∨
    (Topic.EndsIn topic "state" ∧ Undecodable Report.record payload) ∨
    (Topic.EndsIn topic "event" ∧ Undecodable Event.record payload) ∨
    (Topic.EndsIn topic "ack" ∧ Undecodable Ack.record payload)

/-- Something is wrong with a last will: its topic names no device, or it is none of two words. -/
def BadLastWill (topic : String) (payload : List UInt8) : Prop :=
  Topic.device? topic = none ∨
    (Text.trim (Text.Utf8.lossy payload) ≠ "online" ∧
      Text.trim (Text.Utf8.lossy payload) ≠ "offline")

/-- Something is wrong with a message. -/
def Unacceptable (topic : String) (payload : List UInt8) : Prop :=
  (¬ Topic.EndsIn topic "lwt" ∧ (BadEnvelope payload ∨ BadBody topic payload)) ∨
    (Topic.EndsIn topic "lwt" ∧ BadLastWill topic payload)

/-! ## What is wrong with a message that has no meaning -/

theorem badEnvelope_iff {payload : List UInt8} :
    BadEnvelope payload ↔ ∀ e, ¬ Enveloped payload e := by
  constructor
  · rintro (hnone | ⟨e, hdecoded, hfault⟩) e' henvelope
    · exact hnone e' henvelope.decoded
    · obtain rfl : e = e' := Except.ok.inj (hdecoded.symm.trans henvelope.decoded)
      obtain ⟨hversion, hdevice, hts⟩ := Envelope.fault?_eq_none.mp henvelope.valid
      rcases hfault with h | h | h
      · exact Int64.not_lt.mpr hversion h
      · exact Bool.false_ne_true (hdevice.symm.trans h)
      · exact Int64.not_le.mpr hts h
  · intro hnone
    by_cases hdecoded : ∃ e, Envelope.record.codec.decode payload = .ok e
    · obtain ⟨e, he⟩ := hdecoded
      refine Or.inr ⟨e, he, ?_⟩
      by_contra hfault
      simp only [not_or] at hfault
      obtain ⟨hversion, hdevice, hts⟩ := hfault
      exact hnone e ⟨he, Envelope.fault?_eq_none.mpr ⟨Int64.not_lt.mp hversion,
        Bool.eq_false_iff.mpr hdevice, Int64.not_le.mp hts⟩⟩
    · exact Or.inl fun e he => hdecoded ⟨e, he⟩

theorem badEnvelope_iff_withEnvelope {payload : List UInt8} {make : Envelope → Inbound} :
    BadEnvelope payload ↔
      ∀ m, ((readEnvelope payload).bind fun e => .ok (make e)) ≠ .ok m := by
  rw [badEnvelope_iff]
  constructor
  · intro hnone m hread
    obtain ⟨e, henvelope, -⟩ := withEnvelope_eq_ok_iff.mp hread
    exact hnone e henvelope
  · intro hnone e henvelope
    exact hnone (make e) (withEnvelope_eq_ok_iff.mpr ⟨e, henvelope, rfl⟩)

theorem badEnvelope_or_iff_withBody {α : Type} {payload : List UInt8} {r : Json.Record α}
    {make : Envelope → α → Inbound} : BadEnvelope payload ∨ Undecodable r payload ↔
      ∀ m, ((readEnvelope payload).bind fun e => (decode r payload).map (make e)) ≠ .ok m := by
  rw [badEnvelope_iff]
  constructor
  · intro hbad m hread
    obtain ⟨e, a, henvelope, hbody, -⟩ := withBody_eq_ok_iff.mp hread
    exact hbad.elim (fun hnone => hnone e henvelope) fun hnone => hnone a hbody
  · intro hnone
    by_cases henvelope : ∃ e, Enveloped payload e
    · obtain ⟨e, he⟩ := henvelope
      exact Or.inr fun a ha => hnone (make e a) (withBody_eq_ok_iff.mpr ⟨e, a, he, ha, rfl⟩)
    · exact Or.inl fun e he => henvelope ⟨e, he⟩

section
variable {topic : String} {payload : List UInt8}

theorem badLastWill_iff : BadLastWill topic payload ↔ ∀ m, readLastWill topic payload ≠ .ok m := by
  constructor
  · intro hbad m hread
    obtain ⟨device, online, -, hnamed, hword⟩ := readLastWill_eq_ok_iff.mp hread
    rcases hbad with hnone | ⟨honline, hoffline⟩
    · rw [hnone] at hnamed
      cases hnamed
    · cases online with
      | true => exact honline hword
      | false => exact hoffline hword
  · intro hnone
    cases hnamed : Topic.device? topic with
    | none => exact Or.inl hnamed
    | some device =>
      have hread (online : Bool) : Text.trim (Text.Utf8.lossy payload) ≠
          if online then "online" else "offline" := fun hword =>
        hnone _ (readLastWill_eq_ok_iff.mpr ⟨device, online, rfl, hnamed, hword⟩)
      exact Or.inr ⟨hread true, hread false⟩

theorem unacceptable_of_kind {k : Topic.Kind} (h : Topic.Kind.ofTopic topic = k) :
    Unacceptable topic payload ↔
      match k with
      | .telemetry => BadEnvelope payload ∨ Undecodable Telemetry.record payload
      | .state => BadEnvelope payload ∨ Undecodable Report.record payload
      | .event => BadEnvelope payload ∨ Undecodable Event.record payload
      | .ack => BadEnvelope payload ∨ Undecodable Ack.record payload
      | .configStatus => BadEnvelope payload
      | .other => BadEnvelope payload
      | .lastWill => BadLastWill topic payload := by
  -- a topic ends in the level of its own kind and of no other
  have hends : ∀ e ∈ Topic.Kind.endings, Topic.EndsIn topic e.2 ↔ k = e.1 := fun e he =>
    (Topic.Kind.ofTopic_eq_iff he).symm.trans (by rw [h])
  unfold Unacceptable BadBody
  rw [hends (.telemetry, "telemetry") (by decide), hends (.state, "state") (by decide),
    hends (.event, "event") (by decide), hends (.ack, "ack") (by decide),
    hends (.lastWill, "lwt") (by decide)]
  cases k <;> simp

theorem unacceptable_iff : Unacceptable topic payload ↔ ∀ m, read topic payload ≠ .ok m := by
  unfold read
  cases hkind : Topic.Kind.ofTopic topic with
  | telemetry =>
    rw [unacceptable_of_kind hkind]
    exact badEnvelope_or_iff_withBody
  | state =>
    rw [unacceptable_of_kind hkind]
    exact badEnvelope_or_iff_withBody
  | event =>
    rw [unacceptable_of_kind hkind]
    exact badEnvelope_or_iff_withBody
  | ack =>
    rw [unacceptable_of_kind hkind]
    exact badEnvelope_or_iff_withBody
  | configStatus =>
    rw [unacceptable_of_kind hkind]
    exact badEnvelope_iff_withEnvelope
  | other =>
    rw [unacceptable_of_kind hkind]
    exact badEnvelope_iff_withEnvelope
  | lastWill =>
    rw [unacceptable_of_kind hkind]
    exact badLastWill_iff

end

instance (topic : String) (payload : List UInt8) : Decidable (Unacceptable topic payload) :=
  match h : read topic payload with
  | .ok m => isFalse fun hbad => unacceptable_iff.mp hbad m h
  | .error _ => isTrue (unacceptable_iff.mpr fun _ hm => nomatch h.symm.trans hm)

end Inbound

/-! ## What a rejected message does -/

abbrev Arrival.Unacceptable (a : Arrival) : Prop := Inbound.Unacceptable a.topic a.payload

theorem Arrival.accepted?_isNone (a : Arrival) : a.accepted?.isNone = decide a.Unacceptable := by
  rw [Bool.eq_iff_iff, decide_eq_true_iff]
  unfold Arrival.Unacceptable
  rw [Inbound.unacceptable_iff]
  unfold Arrival.accepted?
  cases Inbound.read a.topic a.payload with
  | error why => exact ⟨nofun, fun _ => rfl⟩
  | ok m => exact ⟨nofun, fun h => absurd rfl (h m)⟩

theorem accepted_filter (as : List Arrival) :
    accepted (as.filter fun a => ¬ a.Unacceptable) = accepted as := by
  unfold accepted
  rw [List.filterMap_filter]
  refine List.filterMap_congr fun a _ => ?_
  have ha := a.accepted?_isNone
  by_cases hbad : a.Unacceptable
  · rw [decide_eq_true hbad, Option.isNone_iff_eq_none] at ha
    simp [hbad, ha]
  · simp [hbad]

namespace Dispatcher

variable {σ : Type}

def recounted (d : Dispatcher σ) (received rejected : UInt64) : Dispatcher σ :=
  { d with stats := { d.stats with received := received, rejected := rejected } }

theorem onMessage_rejected_iff (s : Sink σ) (now : Int64) (d : Dispatcher σ) (topic : String)
    (payload : List UInt8) :
    (∃ why, (d.onMessage s now topic payload).2 = .rejected why) ↔
      Inbound.Unacceptable topic payload := by
  rw [Inbound.unacceptable_iff, onMessage_snd]
  unfold outcomeOf
  cases Inbound.read topic payload with
  | error why => exact ⟨fun _ => nofun, fun _ => ⟨why, rfl⟩⟩
  | ok m => exact ⟨nofun, fun h => absurd rfl (h m)⟩

theorem onMessage_of_unacceptable (s : Sink σ) (now : Int64) (d : Dispatcher σ) {topic : String}
    {payload : List UInt8} (h : Inbound.Unacceptable topic payload) :
    (d.onMessage s now topic payload).1 =
        d.recounted (d.stats.received + 1) (d.stats.rejected + 1) ∧
      (d.onMessage s now topic payload).2.ack? = none := by
  cases hread : Inbound.read topic payload with
  | error why =>
    rw [onMessage_of_error now d hread]
    exact ⟨rfl, rfl⟩
  | ok m => exact absurd hread (Inbound.unacceptable_iff.mp h m)

theorem onMessage_of_acceptable (s : Sink σ) (now : Int64) (d : Dispatcher σ) {topic : String}
    {payload : List UInt8} (h : ¬ Inbound.Unacceptable topic payload) :
    (d.onMessage s now topic payload).1.stats.rejected = d.stats.rejected := by
  cases hread : Inbound.read topic payload with
  | error why =>
    refine absurd (Inbound.unacceptable_iff.mpr fun m hm => ?_) h
    exact nomatch hread.symm.trans hm
  | ok m =>
    rw [onMessage_of_ok now d hread]
    exact (took s now _ m).rejected

/-- Two runs in which the same is read end alike, but for the counters of received and rejected
messages. -/
theorem Ran.eq_of_accepted {s : Sink σ} {as bs : List Arrival} {d e e' : Dispatcher σ}
    (h : Ran s as d e) (h' : Ran s bs d e') (hread : accepted as = accepted bs) :
    e = e'.recounted e.stats.received e.stats.rejected := by
  refine Dispatcher.ext ?_ ?_ ?_ (Stats.eq_of_counts rfl rfl ?_ ?_ ?_ ?_)
  · rw [h.sink, hread, ← h'.sink]
    rfl
  · rw [h.throttle, hread, ← h'.throttle]
    rfl
  · rw [h.registry, hread, ← h'.registry]
    rfl
  · rw [h.written, hread, ← h'.written]
    rfl
  · rw [h.offered, hread, ← h'.offered]
    rfl
  · rw [h.sampled, hread, ← h'.sampled]
    rfl
  · rw [h.acks, hread, ← h'.acks]
    rfl

/-- A message is rejected exactly when something is wrong with it, and counted as such exactly then.
It leaves the sink, the throttle, the registry and all other counters as they are, and is not
forwarded.  In a run the messages that are rejected can be left out: nothing changes but the counts
of received and of rejected messages. -/
theorem rejections_are_no_ops (s : Sink σ) (d : Dispatcher σ) :
    (∀ now topic payload,
      ((∃ why, (d.onMessage s now topic payload).2 = .rejected why) ↔
        Inbound.Unacceptable topic payload) ∧
      (Inbound.Unacceptable topic payload →
        (d.onMessage s now topic payload).1 =
          d.recounted (d.stats.received + 1) (d.stats.rejected + 1) ∧
        (d.onMessage s now topic payload).2.ack? = none) ∧
      (¬ Inbound.Unacceptable topic payload →
        (d.onMessage s now topic payload).1.stats.rejected = d.stats.rejected)) ∧
    ∀ as : List Arrival,
      let kept := as.filter fun a => ¬ a.Unacceptable
      (d.run s as).1 = (d.run s kept).1.recounted (d.stats.received + .ofNat as.length)
        (d.stats.rejected + .ofNat (as.countP fun a => a.Unacceptable)) ∧
      forwarded (d.run s as).2 = forwarded (d.run s kept).2 := by
  refine ⟨fun now topic payload => ⟨onMessage_rejected_iff s now d topic payload,
    onMessage_of_unacceptable s now d, onMessage_of_acceptable s now d⟩, fun as => ⟨?_, ?_⟩⟩
  · have hrun := ran s d as
    have hkept := hrun.eq_of_accepted (ran s d (as.filter fun a => ¬ a.Unacceptable))
      (accepted_filter as).symm
    rw [hrun.received, hrun.rejected] at hkept
    simp only [Arrival.accepted?_isNone] at hkept
    exact hkept
  · rw [forwarded_run, forwarded_run, accepted_filter]

/-- A last will of another word does nothing, unlike one of a known word. -/
theorem rejections_are_no_ops_lastWill :
    let s : Sink Unit := ⟨fun x _ => (x, none)⟩
    let d : Dispatcher Unit := { sink := (), throttle := .new 0 }
    let away : List UInt8 := [97, 119, 97, 121]
    let online : List UInt8 := [111, 110, 108, 105, 110, 101]
    Inbound.Unacceptable "v1/dev/a/lwt" away ∧
      (d.onMessage s 5 "v1/dev/a/lwt" away).1 = d.recounted 1 1 ∧
      ¬ Inbound.Unacceptable "v1/dev/a/lwt" online ∧
      (d.onMessage s 5 "v1/dev/a/lwt" online).1.stats.rejected = 0 := by
  intro s d away online
  have haway : Inbound.Unacceptable "v1/dev/a/lwt" away := by
    have hread : Inbound.read "v1/dev/a/lwt" away = .error .lastWill := by cbv
    exact Inbound.unacceptable_iff.mpr fun _ hm => nomatch hread.symm.trans hm
  have honline : ¬ Inbound.Unacceptable "v1/dev/a/lwt" online := by
    have hread : Inbound.read "v1/dev/a/lwt" online = .ok (.lastWill "a" true) := by cbv
    exact fun hbad => Inbound.unacceptable_iff.mp hbad _ hread
  obtain ⟨hone, -⟩ := rejections_are_no_ops s d
  obtain ⟨-, hrejected, -⟩ := hone 5 "v1/dev/a/lwt" away
  obtain ⟨-, -, haccepted⟩ := hone 5 "v1/dev/a/lwt" online
  exact ⟨haway, (hrejected haway).1, honline, haccepted honline⟩

end Dispatcher

end DeviceHub
