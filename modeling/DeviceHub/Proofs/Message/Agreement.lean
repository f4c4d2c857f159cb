import DeviceHub.Dispatcher.Message
import DeviceHub.Proofs.Json.Record

/-!
# What two decoders read from one payload

A payload on an acknowledgement's topic is read twice, as an envelope and as an acknowledgement.

* `Envelope.fault?_eq_none`  the envelopes that are valid;
* `Envelope.items_faulty`    an array that is an envelope and an acknowledgement is no valid envelope;
* `Ack.envelope_eq`          the version, the device and the time of an acknowledgement are those of the
                             valid envelope that is read from the same octets;
* `Inbound.read_ack`         what is known of a message that was read as an acknowledgement.
-/

namespace DeviceHub

namespace Message

open Json

theorem Envelope.fault?_eq_none {e : Envelope} :
    e.fault? = none ↔ 1 ≤ e.version ∧ Text.isBlank e.device = false ∧ 0 < e.ts := by
  unfold fault?
  by_cases hversion : e.version < 1
  · rw [if_pos hversion]
    exact ⟨nofun, fun h => absurd hversion (Int64.not_lt.mpr h.1)⟩
  · rw [if_neg hversion]
    by_cases hdevice : Text.isBlank e.device = true
    · rw [if_pos hdevice]
      exact ⟨nofun, fun h => absurd (hdevice.symm.trans h.2.1) Bool.true_eq_false.mp⟩
    · rw [if_neg hdevice]
      by_cases hts : e.ts ≤ 0
      · rw [if_pos hts]
        exact ⟨nofun, fun h => absurd hts (Int64.not_le.mpr h.2.2)⟩
      · rw [if_neg hts]
        exact ⟨fun _ => ⟨Int64.not_lt.mp hversion, Bool.eq_false_iff.mpr hdevice,
          Int64.not_le.mp hts⟩, fun _ => rfl⟩

/-! ## Objects -/

/-- Each field of an envelope sets its own part. -/
theorem Envelope.keeps {α : Type} (part : Envelope → α) {name : String}
    (hversion : name = "v" ∨ ∀ a e, part { e with version := a } = part e)
    (hdevice : name = "deviceId" ∨ ∀ a e, part { e with device := a } = part e)
    (hts : name = "ts" ∨ ∀ a e, part { e with ts := a } = part e) :
    ∀ f ∈ Envelope.record.fields, f.name ≠ name → f.Keeps part := by
  intro f hf hne
  simp only [Envelope.record, List.mem_cons, List.not_mem_nil, or_false] at hf
  rcases hf with rfl | rfl | rfl
  · exact Field.keeps_omitted _ _ _ _ _ (hversion.resolve_left (Ne.symm hne))
  · exact Field.keeps_omitted _ _ _ _ _ (hdevice.resolve_left (Ne.symm hne))
  · exact Field.keeps_omitted _ _ _ _ _ (hts.resolve_left (Ne.symm hne))

theorem Envelope.has_version : Envelope.record.Has "v" .int64 (·.version) where
  shows := ⟨_, rfl, Field.shows_omitted _ _ _ _ _ fun _ _ => rfl⟩
  keeps := keeps _ (Or.inl rfl) (Or.inr fun _ _ => rfl) (Or.inr fun _ _ => rfl)

theorem Envelope.has_device : Envelope.record.Has "deviceId" .text (·.device) where
  shows := ⟨_, rfl, Field.shows_omitted _ _ _ _ _ fun _ _ => rfl⟩
  keeps := keeps _ (Or.inr fun _ _ => rfl) (Or.inl rfl) (Or.inr fun _ _ => rfl)

theorem Envelope.has_ts : Envelope.record.Has "ts" .int64 (·.ts) where
  shows := ⟨_, rfl, Field.shows_omitted _ _ _ _ _ fun _ _ => rfl⟩
  keeps := keeps _ (Or.inr fun _ _ => rfl) (Or.inr fun _ _ => rfl) (Or.inl rfl)

/-- the envelope that an acknowledgement repeats -/
def Ack.envelope (a : Ack) : Envelope := ⟨a.version, a.device, a.ts⟩

theorem Ack.keeps {α : Type} (part : Envelope → α) {name : String}
    (hversion : name = "v" ∨ ∀ a e, part { e with version := a } = part e)
    (hdevice : name = "deviceId" ∨ ∀ a e, part { e with device := a } = part e)
    (hts : name = "ts" ∨ ∀ a e, part { e with ts := a } = part e) :
    ∀ f ∈ Ack.record.fields, f.name ≠ name →
      f.Keeps fun a => part a.envelope := by
  intro f hf hne
  simp only [Ack.record, List.mem_cons, List.not_mem_nil, or_false] at hf
  rcases hf with rfl | rfl | rfl | rfl | rfl | rfl | rfl | rfl
  · exact Field.keeps_omitted _ _ _ _ _ fun v a => hversion.resolve_left (Ne.symm hne) v a.envelope
  · exact Field.keeps_omitted _ _ _ _ _ fun _ _ => rfl
  · exact Field.keeps_omitted _ _ _ _ _ fun v a => hdevice.resolve_left (Ne.symm hne) v a.envelope
  · exact Field.keeps_omitted _ _ _ _ _ fun v a => hts.resolve_left (Ne.symm hne) v a.envelope
  · exact Field.keeps_omitted _ _ _ _ _ fun _ _ => rfl
  · exact Field.keeps_omitted _ _ _ _ _ fun _ _ => rfl
  · exact Field.keeps_omitted _ _ _ _ _ fun _ _ => rfl
  · exact Field.keeps_omitted _ _ _ _ _ fun _ _ => rfl

theorem Ack.has_version : Ack.record.Has "v" .int64 (·.version) where
  shows := ⟨_, rfl, Field.shows_omitted _ _ _ _ _ fun _ _ => rfl⟩
  keeps := keeps (·.version) (Or.inl rfl) (Or.inr fun _ _ => rfl) (Or.inr fun _ _ => rfl)

theorem Ack.has_device : Ack.record.Has "deviceId" .text (·.device) where
  shows := ⟨_, rfl, Field.shows_omitted _ _ _ _ _ fun _ _ => rfl⟩
  keeps := keeps (·.device) (Or.inr fun _ _ => rfl) (Or.inl rfl) (Or.inr fun _ _ => rfl)

theorem Ack.has_ts : Ack.record.Has "ts" .int64 (·.ts) where
  shows := ⟨_, rfl, Field.shows_omitted _ _ _ _ _ fun _ _ => rfl⟩
  keeps := keeps (·.ts) (Or.inr fun _ _ => rfl) (Or.inr fun _ _ => rfl) (Or.inl rfl)

/-! ## Arrays -/

theorem int64_text_disjoint {room room' : Nat} {d : Doc} {i : Int64} {s : String}
    (hi : Codec.int64.read room d = .ok i) (hs : Codec.text.read room' d = .ok s) : False := by
  cases d with
  | string o => cases hi
  | _ => cases hs

/-- An array that is read as an envelope and as an acknowledgement is too short for a valid envelope:
its third item would be a time and a device. -/
theorem Envelope.items_faulty {room : Nat} {items : List Doc} {e : Envelope} {a : Ack}
    (he : Envelope.record.read room (.array items) = .ok e)
    (ha : Ack.record.read room (.array items) = .ok a) : e.fault? ≠ none := by
  obtain ⟨inner, hroom, he⟩ := Record.read_array he
  obtain ⟨inner', hroom', ha⟩ := Record.read_array ha
  rw [Ne, fault?_eq_none]
  rintro ⟨hversion, hdevice, hts⟩
  cases items with
  | nil =>
    obtain rfl := Record.readItems_nil he
    exact absurd hversion (by decide)
  | cons d₁ items =>
    obtain ⟨e₁, he₁, he⟩ := Record.readItems_cons he
    obtain ⟨a₁, -, ha⟩ := Record.readItems_cons ha
    obtain ⟨v, -, rfl⟩ := Field.read_omitted he₁
    cases items with
    | nil =>
      obtain rfl := Record.readItems_nil he
      exact absurd hdevice (show ¬ Text.isBlank "" = false by decide)
    | cons d₂ items =>
      obtain ⟨e₂, he₂, he⟩ := Record.readItems_cons he
      obtain ⟨a₂, -, ha⟩ := Record.readItems_cons ha
      obtain ⟨s, -, rfl⟩ := Field.read_omitted he₂
      cases items with
      | nil =>
        obtain rfl := Record.readItems_nil he
        exact absurd hts (show ¬ (0 : Int64) < 0 by decide)
      | cons d₃ items =>
        obtain ⟨e₃, he₃, -⟩ := Record.readItems_cons he
        obtain ⟨a₃, ha₃, -⟩ := Record.readItems_cons ha
        obtain ⟨i, hi, -⟩ := Field.read_omitted he₃
        obtain ⟨t, ht, -⟩ := Field.read_omitted ha₃
        exact int64_text_disjoint hi ht

/-- An acknowledgement repeats the valid envelope that is read from the same octets. -/
theorem Ack.envelope_eq {payload : List UInt8} {e : Envelope} {a : Ack}
    (he : Envelope.record.codec.decode payload = .ok e)
    (ha : Ack.record.codec.decode payload = .ok a) (hvalid : e.fault? = none) : a.envelope = e := by
  have he := Codec.read_of_decode he
  have ha := Codec.read_of_decode ha
  generalize (Doc.scan (Text.Utf8.decode payload)).1 = d at he ha
  cases d with
  | object ms =>
    have hversion : a.version = e.version := Ack.has_version.agree Envelope.has_version rfl ha he
    have hdevice : a.device = e.device := Ack.has_device.agree Envelope.has_device rfl ha he
    have hts : a.ts = e.ts := Ack.has_ts.agree Envelope.has_ts rfl ha he
    rw [envelope, hversion, hdevice, hts]
  | array items => exact absurd hvalid (Envelope.items_faulty he ha)
  | _ => cases he

end Message

/-! ## Messages -/

namespace Inbound

open Message

/-- what is known of a message that was read as an acknowledgement -/
structure ReadAck (topic : String) (payload : List UInt8) (e : Envelope) (a : Ack) : Prop where
  topic : Topic.Kind.ofTopic topic = .ack
  envelope : Envelope.record.codec.decode payload = .ok e
  valid : e.fault? = none
  ack : Ack.record.codec.decode payload = .ok a

theorem decode_ok {α : Type} {r : Json.Record α} {payload : List UInt8} {v : α}
    (h : decode r payload = .ok v) : r.codec.decode payload = .ok v := by
  unfold decode at h
  split at h
  · cases h
    assumption
  · cases h

theorem readEnvelope_ok {payload : List UInt8} {e : Envelope} (h : readEnvelope payload = .ok e) :
    Envelope.record.codec.decode payload = .ok e ∧ e.fault? = none := by
  unfold readEnvelope at h
  split at h
  · cases h
  · rename_i hread
    split at h
    · cases h
    · rename_i hvalid
      cases h
      exact ⟨decode_ok hread, hvalid⟩

theorem bind_readEnvelope_ok {payload : List UInt8} {body : Envelope → Except Rejection Inbound}
    {m : Inbound} (h : (readEnvelope payload).bind body = .ok m) :
    ∃ e, readEnvelope payload = .ok e ∧ body e = .ok m := by
  cases hread : readEnvelope payload with
  | error r =>
    rw [hread] at h
    cases h
  | ok e =>
    rw [hread] at h
    exact ⟨e, rfl, h⟩

theorem map_ok {α β ε : Type} {x : Except ε α} {f : α → β} {b : β} (h : x.map f = .ok b) :
    ∃ a, x = .ok a ∧ f a = b := by
  cases x with
  | error e => cases h
  | ok a => exact ⟨a, rfl, Except.ok.inj h⟩

/-- Only a message on the topic of acknowledgements is one. -/
theorem read_ack {topic : String} {payload : List UInt8} {e : Envelope} {a : Ack}
    (h : read topic payload = .ok (.ack e a)) : ReadAck topic payload e a := by
  unfold read at h
  cases hkind : Topic.Kind.ofTopic topic with
  | ack =>
    simp only [hkind] at h
    obtain ⟨e', hread, h⟩ := bind_readEnvelope_ok h
    obtain ⟨a', hack, h⟩ := map_ok h
    cases h
    obtain ⟨henvelope, hvalid⟩ := readEnvelope_ok hread
    exact ⟨hkind, henvelope, hvalid, decode_ok hack⟩
  | lastWill =>
    simp only [hkind] at h
    unfold readLastWill at h
    split at h
    · cases h
    · simp only at h
      split at h
      · cases h
      · split at h <;> cases h
  | configStatus | other =>
    simp only [hkind] at h
    obtain ⟨e', -, h⟩ := bind_readEnvelope_ok h
    cases h
  | telemetry | state | event =>
    simp only [hkind] at h
    obtain ⟨e', -, h⟩ := bind_readEnvelope_ok h
    obtain ⟨t, -, h⟩ := map_ok h
    cases h

end Inbound

end DeviceHub
