import DeviceHub.Proofs.Message.Agreement

/-!
# What it takes to read a message

* `Inbound.Enveloped`        a payload has a valid envelope;
* `Inbound.Reads`            a topic and a payload have a meaning, kind by kind;
* `Inbound.read_eq_ok_iff`   a message is read as what it means, and as nothing else.
-/

namespace DeviceHub.Inbound

open Message

structure Enveloped (payload : List UInt8) (e : Envelope) : Prop where
  decoded : Envelope.record.codec.decode payload = .ok e
  valid : e.fault? = none

/-- What a topic and a payload mean. -/
inductive Reads (topic : String) (payload : List UInt8) : Inbound → Prop
  | telemetry {e : Envelope} {t : Telemetry} (kind : Topic.Kind.ofTopic topic = .telemetry)
      (envelope : Enveloped payload e) (body : Telemetry.record.codec.decode payload = .ok t) :
      Reads topic payload (.telemetry e t)
  | state {e : Envelope} {r : Report} (kind : Topic.Kind.ofTopic topic = .state)
      (envelope : Enveloped payload e) (body : Report.record.codec.decode payload = .ok r) :
      Reads topic payload (.state e r)
  | event {e : Envelope} {ev : Event} (kind : Topic.Kind.ofTopic topic = .event)
      (envelope : Enveloped payload e) (body : Event.record.codec.decode payload = .ok ev) :
      Reads topic payload (.event e ev)
  | ack {e : Envelope} {a : Ack} (kind : Topic.Kind.ofTopic topic = .ack)
      (envelope : Enveloped payload e) (body : Ack.record.codec.decode payload = .ok a) :
      Reads topic payload (.ack e a)
  | configStatus {e : Envelope} (kind : Topic.Kind.ofTopic topic = .configStatus)
      (envelope : Enveloped payload e) : Reads topic payload (.configStatus e)
  | other {e : Envelope} (kind : Topic.Kind.ofTopic topic = .other)
      (envelope : Enveloped payload e) : Reads topic payload (.other e)
  | lastWill {device : String} {online : Bool} (kind : Topic.Kind.ofTopic topic = .lastWill)
      (named : Topic.device? topic = some device)
      (word : Text.trim (Text.Utf8.lossy payload) = if online then "online" else "offline") :
      Reads topic payload (.lastWill device online)

theorem decode_eq_ok_iff {α : Type} {r : Json.Record α} {payload : List UInt8} {v : α} :
    decode r payload = .ok v ↔ r.codec.decode payload = .ok v := by
  refine ⟨decode_ok, fun h => ?_⟩
  unfold decode
  rw [h]

theorem readEnvelope_eq_ok_iff {payload : List UInt8} {e : Envelope} :
    readEnvelope payload = .ok e ↔ Enveloped payload e := by
  constructor
  · intro h
    obtain ⟨hdecoded, hvalid⟩ := readEnvelope_ok h
    exact ⟨hdecoded, hvalid⟩
  · intro h
    unfold readEnvelope
    rw [decode_eq_ok_iff.mpr h.decoded]
    simp only [h.valid]

theorem readLastWill_eq_ok_iff {topic : String} {payload : List UInt8} {m : Inbound} :
    readLastWill topic payload = .ok m ↔ ∃ device online, m = .lastWill device online ∧
      Topic.device? topic = some device ∧
      Text.trim (Text.Utf8.lossy payload) = if online then "online" else "offline" := by
  unfold readLastWill
  cases Topic.device? topic with
  | none => simp
  | some device =>
    generalize Text.trim (Text.Utf8.lossy payload) = word
    by_cases hoffline : word = "offline"
    · subst hoffline
      simp [eq_comm]
    · by_cases honline : word = "online"
      · subst honline
        simp [eq_comm]
      · simp [hoffline, honline]

theorem withEnvelope_eq_ok_iff {payload : List UInt8} {body : Envelope → Except Rejection Inbound}
    {m : Inbound} : (readEnvelope payload).bind body = .ok m ↔
      ∃ e, Enveloped payload e ∧ body e = .ok m := by
  constructor
  · intro h
    obtain ⟨e, hread, hbody⟩ := bind_readEnvelope_ok h
    exact ⟨e, readEnvelope_eq_ok_iff.mp hread, hbody⟩
  · rintro ⟨e, henvelope, hbody⟩
    rw [readEnvelope_eq_ok_iff.mpr henvelope]
    exact hbody

theorem withBody_eq_ok_iff {α : Type} {payload : List UInt8} {r : Json.Record α}
    {make : Envelope → α → Inbound} {m : Inbound} :
    ((readEnvelope payload).bind fun e => (decode r payload).map (make e)) = .ok m ↔
      ∃ e a, Enveloped payload e ∧ r.codec.decode payload = .ok a ∧ m = make e a := by
  rw [withEnvelope_eq_ok_iff]
  constructor
  · rintro ⟨e, henvelope, hbody⟩
    obtain ⟨a, hread, hm⟩ := map_ok hbody
    exact ⟨e, a, henvelope, decode_ok hread, hm.symm⟩
  · rintro ⟨e, a, henvelope, hread, rfl⟩
    refine ⟨e, henvelope, ?_⟩
    rw [decode_eq_ok_iff.mpr hread]
    rfl

/-- A message is read as what it means, and as nothing else. -/
theorem read_eq_ok_iff {topic : String} {payload : List UInt8} {m : Inbound} :
    read topic payload = .ok m ↔ Reads topic payload m := by
  unfold read
  constructor
  · intro h
    cases hkind : Topic.Kind.ofTopic topic with
    | telemetry =>
      simp only [hkind] at h
      obtain ⟨e, t, henvelope, hbody, rfl⟩ := withBody_eq_ok_iff.mp h
      exact .telemetry hkind henvelope hbody
    | state =>
      simp only [hkind] at h
      obtain ⟨e, r, henvelope, hbody, rfl⟩ := withBody_eq_ok_iff.mp h
      exact .state hkind henvelope hbody
    | event =>
      simp only [hkind] at h
      obtain ⟨e, ev, henvelope, hbody, rfl⟩ := withBody_eq_ok_iff.mp h
      exact .event hkind henvelope hbody
    | ack =>
      simp only [hkind] at h
      obtain ⟨e, a, henvelope, hbody, rfl⟩ := withBody_eq_ok_iff.mp h
      exact .ack hkind henvelope hbody
    | configStatus =>
      simp only [hkind] at h
      obtain ⟨e, henvelope, hbody⟩ := withEnvelope_eq_ok_iff.mp h
      cases hbody
      exact .configStatus hkind henvelope
    | other =>
      simp only [hkind] at h
      obtain ⟨e, henvelope, hbody⟩ := withEnvelope_eq_ok_iff.mp h
      cases hbody
      exact .other hkind henvelope
    | lastWill =>
      simp only [hkind] at h
      obtain ⟨device, online, rfl, hnamed, hword⟩ := readLastWill_eq_ok_iff.mp h
      exact .lastWill hkind hnamed hword
  · intro h
    cases h with
    | telemetry kind envelope body =>
      simp only [kind]
      exact withBody_eq_ok_iff.mpr ⟨_, _, envelope, body, rfl⟩
    | state kind envelope body =>
      simp only [kind]
      exact withBody_eq_ok_iff.mpr ⟨_, _, envelope, body, rfl⟩
    | event kind envelope body =>
      simp only [kind]
      exact withBody_eq_ok_iff.mpr ⟨_, _, envelope, body, rfl⟩
    | ack kind envelope body =>
      simp only [kind]
      exact withBody_eq_ok_iff.mpr ⟨_, _, envelope, body, rfl⟩
    | configStatus kind envelope =>
      simp only [kind]
      exact withEnvelope_eq_ok_iff.mpr ⟨_, envelope, rfl⟩
    | other kind envelope =>
      simp only [kind]
      exact withEnvelope_eq_ok_iff.mpr ⟨_, envelope, rfl⟩
    | lastWill kind named word =>
      simp only [kind]
      exact readLastWill_eq_ok_iff.mpr ⟨_, _, rfl, named, word⟩

end DeviceHub.Inbound
