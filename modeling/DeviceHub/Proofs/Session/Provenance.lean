import DeviceHub.Proofs.Message.Agreement
import DeviceHub.Proofs.Session.Correlation

/-!
# Where acknowledgements come from

* `Stamped`           every send that was registered has a command with its id and its device, which
                      was given to the client unless the connection did not stand;
* `Sourced`           every acknowledgement was handed over for a message that was read as one;
* `Stamped.after`, `Sourced.after`   runs, the latter when the dispatcher alone hands them over;
* `Brought`           the message that brought the answer of a send;
* `answers_come_from_messages`   every answer was brought by a message.
-/

namespace DeviceHub.Session

open Command (IsAnswer)

/-- the command of a send that was registered -/
structure Stamp (h : History) (n : Nat) (send : Command.Send) (c : Message.Command) : Prop where
  id : c.id = send.id
  device : c.device = send.device
  published : (∃ time, (time, .published (Command.publication c) (some send.id)) ∈ h) ∨
    ∃ time e, (time, .resolved n (.error (.ofPublish e))) ∈ h

/-- Every send that was registered has its command. -/
def Stamped (h : History) : Prop :=
  ∀ time n send c, (time, .registered n send c) ∈ h → Stamp h n send c

/-- Every acknowledgement was handed over for a message that was read as one. -/
def Sourced (h : History) : Prop :=
  ∀ newer time a older, h = newer ++ (time, .acknowledged a) :: older →
    ∃ topic payload e rest, older = (time, .received topic payload (.taken (some a))) :: rest ∧
      Inbound.ReadAck topic payload e a

def Happening.ack? : Happening → Option Message.Ack
  | .acknowledged a => some a
  | _ => none

/-- whether what happens neither begins a send nor hands over an acknowledgement -/
def plain (new : History) : Bool := new.all fun e => e.2.registration?.isNone && e.2.ack?.isNone

section
variable {h : History}

theorem plain_of_mem {new : History} (hnew : plain new = true) {e : Nat × Happening}
    (he : e ∈ new) : e.2.registration? = none ∧ e.2.ack? = none := by
  have hboth := List.all_eq_true.mp hnew e he
  rw [Bool.and_eq_true] at hboth
  exact hboth.imp Option.isNone_iff_eq_none.mp Option.isNone_iff_eq_none.mp

theorem Stamp.of_suffix {g : History} {n : Nat} {send : Command.Send} {c : Message.Command}
    (hs : Stamp h n send c) (hsuffix : h <:+ g) : Stamp g n send c := by
  refine { hs with published := hs.published.imp ?_ ?_ }
  · rintro ⟨time, hmem⟩
    exact ⟨time, hsuffix.subset hmem⟩
  · rintro ⟨time, e, hmem⟩
    exact ⟨time, e, hsuffix.subset hmem⟩

theorem Stamped.append (hs : Stamped h) (new : History)
    (hnew : ∀ e ∈ new, e.2.registration? = none) : Stamped (new ++ h) := by
  intro time n send c hmem
  rcases List.mem_append.mp hmem with hmem | hmem
  · cases hnew _ hmem
  · exact (hs time n send c hmem).of_suffix (List.suffix_append new h)

theorem Stamped.register (hs : Stamped h) {time : Nat} {n : Nat} {send : Command.Send}
    {c : Message.Command} {new : History} (hnew : plain new = true)
    (hc : Stamp (new ++ (time, .registered n send c) :: h) n send c) :
    Stamped (new ++ (time, .registered n send c) :: h) := by
  intro time' m send' c' hmem
  rcases List.mem_append.mp hmem with hmem | hmem
  · cases (plain_of_mem hnew hmem).1
  · rcases List.mem_cons.mp hmem with heq | hmem
    · cases heq
      exact hc
    · exact (hs time' m send' c' hmem).of_suffix ((List.suffix_cons _ h).trans
        (List.suffix_append new _))

theorem Sourced.append (hs : Sourced h) {new : History} (hnew : plain new = true) :
    Sourced (new ++ h) := by
  induction new with
  | nil => exact hs
  | cons e new ih =>
    intro newer time a older heq
    cases newer with
    | nil =>
      cases heq
      cases (plain_of_mem hnew List.mem_cons_self).2
    | cons f newer =>
      unfold plain at hnew
      rw [List.all_cons, Bool.and_eq_true] at hnew
      exact ih hnew.2 newer time a older (List.cons_eq_cons.mp heq).2

theorem Sourced.deliver (hs : Sourced h) (time : Nat) {topic : String} {payload : List UInt8}
    {e : Message.Envelope} {a : Message.Ack} (hread : Inbound.ReadAck topic payload e a) :
    Sourced ((time, .acknowledged a) :: (time, .received topic payload (.taken (some a))) :: h) := by
  have hreceived : Sourced ([(time, .received topic payload (.taken (some a)))] ++ h) :=
    hs.append rfl
  intro newer time' b older heq
  cases newer with
  | nil =>
    cases heq
    exact ⟨topic, payload, e, h, rfl, hread⟩
  | cons f newer => exact hreceived newer time' b older (List.cons_eq_cons.mp heq).2

end

namespace Desk

variable {ids : Nat → String} {direct : Prop} {d d' : Desk}

/-- what a step adds to the history -/
inductive Grows (direct : Prop) : History → History → Prop
  | plain (h new) (hnew : Session.plain new = true) : Grows direct h (new ++ h)
  | register (h new time n send c) (hnew : Session.plain new = true)
      (hc : Stamp (new ++ (time, .registered n send c) :: h) n send c) :
      Grows direct h (new ++ (time, .registered n send c) :: h)
  | acknowledge (h time a) (hdirect : direct) : Grows direct h ((time, .acknowledged a) :: h)
  | deliver (h time topic payload e a) (hread : Inbound.ReadAck topic payload e a) :
      Grows direct h
        ((time, .acknowledged a) :: (time, .received topic payload (.taken (some a))) :: h)

theorem Step.grows (hstep : Step ids direct d d') : Grows direct d.history d'.history := by
  cases hstep with
  | note time e hq =>
    refine .plain _ [(time, e)] ?_
    cases e <;> first | rfl | cases hq
  | start | put | close => exact .plain _ [] rfl
  | refuse n t msg q time => exact .plain _ [_, _] rfl
  | register n t t' send c time ht hs hs' hid hc hd =>
    refine .register _ [_] time n send c rfl ⟨hc, hd, Or.inl ⟨time, List.mem_cons_self⟩⟩
  | bounce n t t' send c e q time ht hs hs' hid hc hd hq =>
    exact .register _ [_, _, _] time n send c rfl
      ⟨hc, hd, Or.inr ⟨time, e, List.mem_cons_of_mem _ List.mem_cons_self⟩⟩
  | acknowledge a time hdirect => exact .acknowledge _ time a hdirect
  | deliver topic payload e a time hread =>
    exact .deliver _ time topic payload e a (Inbound.read_ack hread)
  | hand n t t' send time => exact .plain _ [_] rfl
  | fail n t send e q time => exact .plain _ [_, _, _] rfl
  | look n t send cancelled expired now time => exact .plain _ [_] rfl
  | settle n t send cancelled expired now r q time => exact .plain _ [_, _, _] rfl
  | drop n t time => exact .plain _ [_] rfl

theorem Grows.stamped {h h' : History} (hg : Grows direct h h') (hs : Stamped h) : Stamped h' := by
  cases hg with
  | plain new hnew => exact hs.append new fun e he => (plain_of_mem hnew he).1
  | register new time n send c hnew hc => exact hs.register hnew hc
  | acknowledge time a =>
    refine hs.append [(time, .acknowledged a)] fun e he => ?_
    cases List.mem_singleton.mp he
    rfl
  | deliver time topic payload e a =>
    refine hs.append [(time, .acknowledged a),
      (time, .received topic payload (.taken (some a)))] fun e he => ?_
    rcases List.mem_pair.mp he with rfl | rfl <;> rfl

theorem Grows.sourced {h h' : History} (hg : Grows False h h') (hs : Sourced h) : Sourced h' := by
  cases hg with
  | plain new hnew => exact hs.append hnew
  | register new time n send c hnew =>
    have hregistered : Sourced ([(time, .registered n send c)] ++ h) := by
      intro newer time' a older heq
      cases newer with
      | nil => cases heq
      | cons f newer => exact hs newer time' a older (List.cons_eq_cons.mp heq).2
    exact hregistered.append hnew
  | acknowledge time a hdirect => exact hdirect.elim
  | deliver time topic payload e a hread => exact hs.deliver time hread

theorem Steps.stamped (hsteps : Steps ids direct d d') (h : Stamped d.history) :
    Stamped d'.history := by
  induction hsteps with
  | refl => exact h
  | tail _ hstep ih => exact hstep.grows.stamped ih

theorem Steps.sourced (hsteps : Steps ids False d d') (h : Sourced d.history) :
    Sourced d'.history := by
  induction hsteps with
  | refl => exact h
  | tail _ hstep ih => exact hstep.grows.sourced ih

end Desk

variable {σ : Type} {ids : Nat → String}

theorem Stamped.after {hub : Hub σ} {ms : List (Move σ)} (hids : IdsFrom ids ms) :
    Stamped ((new hub).after ms).history := by
  have hsteps : Desk.Steps ids True (new hub).desk ((new hub).after ms).desk :=
    steps_after _ ms hids (fun _ _ _ _ => trivial)
  exact hsteps.stamped (fun _ _ _ _ hmem => absurd hmem List.not_mem_nil)

/-- In the moves the dispatcher alone hands over acknowledgements. -/
def Wired (ms : List (Move σ)) : Prop := ∀ m ∈ ms, ∀ b, m.2 ≠ .acknowledge b

theorem Sourced.after {hub : Hub σ} {ms : List (Move σ)} (hids : IdsFrom ids ms)
    (hwired : Wired ms) : Sourced ((new hub).after ms).history := by
  have hsteps : Desk.Steps ids False (new hub).desk ((new hub).after ms).desk :=
    steps_after _ ms hids (fun m hm b hb => hwired m hm b hb)
  refine hsteps.sourced (fun newer time a older heq => ?_)
  cases (List.append_eq_nil_iff.mp heq.symm).2

/-! ## Answers -/

/-- The command of a send that has an answer was given to the client. -/
theorem published_of_answer {d : Desk} (hs : Stamped d.history) (hf : Desk.Followed d) {n : Nat}
    {send : Command.Send} {r : Except Command.Error Message.Ack} (hr : result? d.history n = some r)
    (hans : IsAnswer r) {time : Nat} {c : Message.Command}
    (hc : (time, .registered n send c) ∈ d.history) :
    ∃ time, (time, .published (Command.publication c) (some c.id)) ∈ d.history := by
  have hstamp := hs time n send c hc
  rw [hstamp.id]
  refine hstamp.published.resolve_right ?_
  rintro ⟨time', e, hfailed⟩
  cases hr.symm.trans (hf.resolved time' n _ hfailed)
  exact Command.not_isAnswer_ofPublish e hans

/-- A message brought the answer of a send: it came after the send was registered, on the topic of
acknowledgements, and is read as the answer, whose id is that of the command that was published. -/
structure Brought (h : History) (n : Nat) (a : Message.Ack) (send : Command.Send)
    (c : Message.Command) (topic : String) (payload : List UInt8) (e : Message.Envelope)
    (older : History) : Prop where
  message : ∃ newer time, h = newer ++ (time, .acknowledged a) ::
    (time, .received topic payload (.taken (some a))) :: older
  registered : ∃ time, (time, .registered n send c) ∈ older
  published : ∃ time, (time, .published (Command.publication c) (some c.id)) ∈ h
  id : a.id = c.id
  read : Inbound.ReadAck topic payload e a

theorem brought_of_answered {d : Desk} (hs : Stamped d.history) (hsource : Sourced d.history)
    (hf : Desk.Followed d) {n : Nat} {send : Command.Send} {a : Message.Ack} {older : History}
    (ha : Answered d.history n send a older) {r : Except Command.Error Message.Ack}
    (hr : result? d.history n = some r) (hans : IsAnswer r) :
    ∃ c topic payload e rest, Brought d.history n a send c topic payload e rest := by
  obtain ⟨newer, time, hcall, -⟩ := ha.call
  obtain ⟨topic, payload, e, rest, rfl, hread⟩ := hsource newer time a older hcall
  obtain ⟨time', c, hc⟩ := mem_registrations.mp ha.registered
  have hc' : (time', .registered n send c) ∈ d.history := by
    rw [hcall]
    exact List.mem_append_right _ (List.mem_cons_of_mem _ hc)
  refine ⟨c, topic, payload, e, rest, ⟨newer, time, hcall⟩, ⟨time', ?_⟩,
    published_of_answer hs hf hr hans hc', ha.own.trans (hs _ _ _ _ hc').id.symm, hread⟩
  rcases List.mem_cons.mp hc with heq | hc
  · cases heq
  · exact hc

theorem receive_pending (x : Surroundings σ) (s : Session σ) {topic : String}
    (ht : Topic.Kind.ofTopic topic ≠ .ack) (payload : List UInt8) :
    (s.receive x topic payload).hub.pending = s.hub.pending := by
  refine congrArg Desk.pending (desk_receive_kept x s fun a ho => ?_)
  obtain ⟨e, hread⟩ := Dispatcher.outcomeOf_eq_forwarded_iff.mp ho
  exact ht (Inbound.read_ack hread).topic

/-- In every run of an assembled hub in which the dispatcher alone hands over acknowledgements:

* a send that ends with an acknowledgement got it from a message that came after the send was
  registered, on the topic of acknowledgements; it has the id of the command that was published, and
  repeats the envelope of the message, which is valid;
* no send ends because its acknowledgement is not identified;
* the result that a task ends with is that of its send;
* a message on another topic leaves the pending commands as they are. -/
theorem answers_come_from_messages (hinj : Function.Injective ids) (c : Config) (sink : σ)
    {ms : List (Move σ)} (hids : IdsFrom ids ms) (hwired : Wired ms) :
    let s := (new (Hub.assemble c sink)).after ms
    (∀ n a, result? s.history n = some (.ok a) → ∃ send command topic payload e older,
      Brought s.history n a send command topic payload e older ∧
      a.version = e.version ∧ a.device = e.device ∧ a.ts = e.ts ∧
      1 ≤ a.version ∧ Text.isBlank a.device = false ∧ 0 < a.ts) ∧
    (∀ n, result? s.history n ≠ some (.error .invalidAck)) ∧
    (∀ time n r, (time, .ended n (.sent r)) ∈ s.history → result? s.history n = some r) ∧
    (∀ x topic payload, Topic.Kind.ofTopic topic ≠ .ack →
      (s.receive x topic payload).hub.pending = s.hub.pending) := by
  intro s
  have hf : Desk.Followed s.desk := .after hinj rfl hids
  have hstamped : Stamped s.desk.history := .after hids
  have hsourced : Sourced s.desk.history := .after hids hwired
  refine ⟨fun n a hr => ?_, fun n hr => ?_, hf.shown, fun x topic payload ht =>
    receive_pending x s ht payload⟩
  · obtain ⟨-, send, older, hanswered⟩ := hf.answered_ok hr
    obtain ⟨command, topic, payload, e, rest, hbrought⟩ :=
      brought_of_answered hstamped hsourced hf hanswered hr trivial
    have hread := hbrought.read
    obtain rfl : a.envelope = e := Message.Ack.envelope_eq hread.envelope hread.ack hread.valid
    obtain ⟨hversion, hdevice, hts⟩ := Message.Envelope.fault?_eq_none.mp hread.valid
    exact ⟨send, command, topic, payload, _, rest, hbrought, rfl, rfl, rfl, hversion, hdevice, hts⟩
  · obtain ⟨a, send, older, hidentified, hanswered⟩ := hf.answered_invalid hr
    obtain ⟨command, topic, payload, e, rest, hbrought⟩ :=
      brought_of_answered hstamped hsourced hf hanswered hr trivial
    have hread := hbrought.read
    obtain rfl : a.envelope = e := Message.Ack.envelope_eq hread.envelope hread.ack hread.valid
    obtain ⟨-, hdevice, -⟩ := Message.Envelope.fault?_eq_none.mp hread.valid
    have hblank : a.device ≠ "" := fun hempty => by
      rw [show a.envelope.device = "" from hempty] at hdevice
      cases hdevice
    have hnamed : a.isIdentified = true := by
      unfold Message.Ack.isIdentified
      rw [Bool.and_eq_true]
      exact ⟨decide_eq_true hanswered.named, decide_eq_true hblank⟩
    rw [hnamed] at hidentified
    cases hidentified

/-- A command is sent on a connection that stands, and a message answers it. -/
theorem answers_come_from_messages_ping :
    let payload := Text.Utf8.encode
      "\x7b\"v\":1,\"id\":\"i\",\"deviceId\":\"a\",\"ts\":5,\"ok\":true\x7d"
    let s := (new (Hub.assemble {} ())).after (trialMoves [.start .connect none, .resume (.task 1),
      .feed [.ok .connAck], .resume (.task 1), .resume .worker, ping "a", .resume (.task 2),
      .feed [.ok (.publish "v1/dev/a/ack" payload)], .resume .worker, .resume (.task 2)])
    ∃ a send command topic payload e older,
      Brought s.history 2 a send command topic payload e older ∧ a.device = "a" := by
  intro payload s
  obtain ⟨hanswer, -⟩ := answers_come_from_messages tally_injective {} () (idsFrom_trialMoves
    [.start .connect none, .resume (.task 1), .feed [.ok .connAck], .resume (.task 1),
      .resume .worker, ping "a", .resume (.task 2),
      .feed [.ok (.publish "v1/dev/a/ack" payload)], .resume .worker, .resume (.task 2)])
    (by simp [Wired, trialMoves, ping])
  have hdevice : ((result? s.history 2).any fun r => r.toOption.any (·.device = "a")) = true := by
    decide +kernel
  obtain ⟨_ | a, hr, hdevice⟩ := (Option.any_eq_true _ _).mp hdevice
  · cases hdevice
  · obtain ⟨send, command, topic, payload, e, older, hbrought, -⟩ := hanswer 2 a hr
    exact ⟨a, send, command, topic, payload, e, older, hbrought, of_decide_eq_true hdevice⟩

end DeviceHub.Session
