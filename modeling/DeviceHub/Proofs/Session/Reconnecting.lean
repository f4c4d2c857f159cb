import DeviceHub.Proofs.Session.Lease.Steps

/-!
# When the worker connects again

* `accepted`, `failures`    whether the broker accepted a connection, and how many errors the link
                            yielded since it did last: the loss, and then the attempts that failed;
* `unanswered`              the last error of a connection, while nothing was polled since;
* `Lease.Timely`            when a poll begins after such an error;
* `Lease.Rhythm`            every poll is timely, and the worker knows when the next one is due;
* `reconnects_follow_the_backoff`  all of it, for every run.

The first attempt comes at once after a loss. After the `k + 1`-st attempt that failed since then the
next one comes after the delay of a backoff that has had `k` failures.
-/

namespace DeviceHub.Session

open Lease (Step Steps Reached isPassing passEntries passThen)

variable {σ : Type} {o : Connection.Options} {exact : Prop}

/-! ## Reading a log -/

def accepted (log : Log) : Bool :=
  log.any fun e =>
    match e.2 with
    | .took (.ok .connAck) => true
    | _ => false

/-- how many errors the link yielded since the broker accepted last -/
def failures : Log → Nat
  | [] => 0
  | (_, .took (.ok .connAck)) :: _ => 0
  | (_, .took (.error _)) :: older => failures older + 1
  | _ :: older => failures older

/-- The last error of a connection, while nothing was polled since: its time, and how many errors came
before it since the broker accepted. -/
def unanswered : Log → Option (Nat × Nat)
  | [] => none
  | (time, .took (.error _)) :: older =>
    if accepted older then some (time, failures older) else none
  | (_, .took (.ok _)) :: _ => none
  | (_, .polled) :: _ => none
  | _ :: older => unanswered older

/-- whether an entry is neither the beginning nor the end of a poll -/
def Entry.isMute : Entry → Bool
  | .polled | .took _ => false
  | _ => true

theorem accepted_append (newer older : Log) :
    accepted (newer ++ older) = (accepted newer || accepted older) := List.any_append

theorem unanswered_of_not_accepted {log : Log} (h : accepted log = false) : unanswered log = none := by
  induction log with
  | nil => rfl
  | cons e log ih =>
    have hlog : accepted log = false := (Bool.or_eq_false_iff.mp h).2
    rcases e with ⟨time, _ | (_ | _) | _ | _ | _⟩
    · rfl
    · show (if accepted log then _ else none) = none
      rw [hlog]
      rfl
    · rfl
    · exact ih hlog
    · exact ih hlog
    · exact ih hlog

section
variable {es : Log} (hes : ∀ e ∈ es, e.2.isMute = true) (log : Log)
include hes

theorem accepted_mute : accepted (es ++ log) = accepted log := by
  have hnone : accepted es = false := by
    refine List.any_eq_false.mpr fun e he => ?_
    have hmute := hes e he
    rcases e with ⟨time, _ | _ | _ | _ | _⟩
    · cases hmute
    · cases hmute
    all_goals simp
  rw [accepted_append, hnone, Bool.false_or]

theorem failures_mute : failures (es ++ log) = failures log := by
  induction es with
  | nil => rfl
  | cons e es ih =>
    obtain ⟨he, hrest⟩ := List.forall_mem_cons.mp hes
    rcases e with ⟨time, _ | _ | _ | _ | _⟩
    · cases he
    · cases he
    all_goals exact ih hrest

theorem unanswered_mute : unanswered (es ++ log) = unanswered log := by
  induction es with
  | nil => rfl
  | cons e es ih =>
    obtain ⟨he, hrest⟩ := List.forall_mem_cons.mp hes
    rcases e with ⟨time, _ | _ | _ | _ | _⟩
    · cases he
    · cases he
    all_goals exact ih hrest

end

/-- the entries of one pass over all subscriptions, at a time -/
def passLog (o : Connection.Options) (time : Nat) : Log :=
  ((passEntries o).map fun e => (time, e)).reverse

theorem passLog_mute (time : Nat) : ∀ e ∈ passLog o time, e.2.isMute = true := by
  intro e he
  obtain ⟨entry, hentry, rfl⟩ := List.mem_map.mp (List.mem_reverse.mp he)
  obtain ⟨_, -, rfl⟩ := List.mem_map.mp hentry
  rfl

namespace Lease

theorem log_enter_passThen (l : Lease) (es : List Entry) (e : Entry) :
    (l.enter (es ++ passThen o e)).log =
      (l.clock, e) :: (passLog o l.clock ++ (l.enter es).log) := by
  unfold enter passThen passLog
  simp only [List.map_append, List.reverse_append, List.append_assoc]
  rfl

/-! ## Polls in time -/

/-- A poll begins in time: at once after a loss, and after a failed attempt when its delay is over;
not later either if that is asked for. -/
def Timely (o : Connection.Options) (exact : Prop) (time : Nat) (older : Log) : Prop :=
  match unanswered older with
  | none => True
  | some (lost, 0) => time = lost
  | some (failed, k + 1) =>
    failed + (Backoff.delay o.backoff k).ticks ≤ time ∧
    (exact → time = failed + (Backoff.delay o.backoff k).ticks)

/-- every poll begins in time -/
def AllTimely (o : Connection.Options) (exact : Prop) (log : Log) : Prop :=
  ∀ newer time older, log = newer ++ (time, .polled) :: older → Timely o exact time older

namespace AllTimely

variable {log : Log}

theorem cons (h : AllTimely o exact log) {e : Nat × Entry}
    (he : e.2 = .polled → Timely o exact e.1 log) : AllTimely o exact (e :: log) := by
  intro newer time older heq
  cases newer with
  | nil =>
    cases heq
    exact he rfl
  | cons e' newer =>
    exact h newer time older (List.cons.inj heq).2

theorem other (h : AllTimely o exact log) {e : Nat × Entry} (he : e.2 ≠ .polled) :
    AllTimely o exact (e :: log) := h.cons fun heq => absurd heq he

theorem mute (h : AllTimely o exact log) {es : Log} (hes : ∀ e ∈ es, e.2.isMute = true) :
    AllTimely o exact (es ++ log) := by
  induction es with
  | nil => exact h
  | cons e es ih =>
    obtain ⟨he, hrest⟩ := List.forall_mem_cons.mp hes
    exact (ih hrest).other fun heq => by rw [heq] at he; cases he

theorem free (h : AllTimely o exact log) (time : Nat) (hnone : unanswered log = none) :
    AllTimely o exact ((time, .polled) :: log) :=
  h.cons fun _ => by
    unfold Timely
    rw [hnone]
    trivial

theorem heard (h : AllTimely o exact log) {p : Polled} (hp : isPassing p = true) (time : Nat) :
    let log' := (time, Entry.polled) :: (time, .took p) :: log
    accepted log' = accepted log ∧ failures log' = failures log ∧ unanswered log' = none ∧
      AllTimely o exact log' := by
  rcases p with e | (_ | _ | _)
  · cases hp
  · cases hp
  · exact ⟨rfl, rfl, rfl, (h.other (by simp)).free time rfl⟩
  · exact ⟨rfl, rfl, rfl, (h.other (by simp)).free time rfl⟩

end AllTimely

/-! ## The rhythm of the worker -/

/-- The worker knows how many attempts failed since the connection was lost, and when the next one is
due. -/
structure InStep (o : Connection.Options) (exact : Prop) (l : Lease) (w : Connection.Worker)
    (stage : WorkerStage) : Prop where
  met : accepted l.log = true
  backoff : w.backoff = Backoff.failed o.backoff (failures l.log - 1)
  busy : (∀ limit, stage ≠ .resting limit) → unanswered l.log = none
  listens : (∀ limit, stage ≠ .resting limit) → (w.point = .listening ↔ failures l.log = 0)
  rests : ∀ limit, stage = .resting limit → ∃ failed k, unanswered l.log = some (failed, k + 1) ∧
    failures l.log = k + 2 ∧ limit = failed + (Backoff.delay o.backoff k).ticks ∧
    (exact → l.stopping = false → l.clock ≤ limit)

/-- The polls are timely, and the worker is in step with them. A worker leaves no loss behind. -/
structure Rhythm (o : Connection.Options) (exact : Prop) (l : Lease) : Prop where
  unmet : l.holder.isOpen = true → accepted l.log = false
  polls : AllTimely o exact l.log
  inStep : ∀ w stage, l.holder = .worker w stage → InStep o exact l w stage
  gone : l.holder = .gone → ∀ failed k, unanswered l.log = some (failed, k) →
    k ≠ 0 ∧ l.stopping = true

namespace InStep

variable {l l' : Lease} {w : Connection.Worker} {stage : WorkerStage}

theorem mute (h : InStep o exact l w stage) (es : Log) (hes : ∀ e ∈ es, e.2.isMute = true)
    (hlog : l'.log = es ++ l.log) (hclock : exact → l'.stopping = false → ∀ limit,
      stage = .resting limit → l.stopping = false ∧ (l.clock ≤ limit → l'.clock ≤ limit)) :
    InStep o exact l' w stage where
  met := by rw [hlog, accepted_mute hes, h.met]
  backoff := by rw [hlog, failures_mute hes, h.backoff]
  busy hstage := by rw [hlog, unanswered_mute hes, h.busy hstage]
  listens hstage := by rw [hlog, failures_mute hes, h.listens hstage]
  rests limit hstage := by
    obtain ⟨failed, k, hlast, hfailures, hlimit, hexact⟩ := h.rests limit hstage
    refine ⟨failed, k, by rw [hlog, unanswered_mute hes, hlast],
      by rw [hlog, failures_mute hes, hfailures], hlimit, fun he hs => ?_⟩
    obtain ⟨hs', hclock⟩ := hclock he hs limit hstage
    exact hclock (hexact he hs')

theorem polling (hmet : accepted l.log = true)
    (hbackoff : w.backoff = Backoff.failed o.backoff (failures l.log - 1))
    (hnone : unanswered l.log = none) (hlistens : w.point = .listening ↔ failures l.log = 0)
    (hstage : ∀ limit, stage ≠ .resting limit) : InStep o exact l w stage :=
  ⟨hmet, hbackoff, fun _ => hnone, fun _ => hlistens,
    fun limit hlimit => absurd hlimit (hstage limit)⟩

end InStep

namespace Rhythm

variable {l l' : Lease}

theorem mute (h : Rhythm o exact l) (es : Log) (hes : ∀ e ∈ es, e.2.isMute = true)
    (hlog : l'.log = es ++ l.log) (hholder : l'.holder = l.holder)
    (hstopping : l'.stopping = false → l.stopping = false)
    (hclock : exact → l'.stopping = false → ∀ w limit, l.holder = .worker w (.resting limit) →
      l.clock ≤ limit → l'.clock ≤ limit) : Rhythm o exact l' where
  unmet ho := by rw [hlog, accepted_mute hes, h.unmet (hholder ▸ ho)]
  polls := hlog ▸ h.polls.mute hes
  inStep w stage hw := by
    have hw' := hholder ▸ hw
    refine (h.inStep w stage hw').mute es hes hlog fun he hs limit hstage => ⟨hstopping hs, ?_⟩
    exact hclock he hs w limit (hstage ▸ hw')
  gone hg failed k hlast := by
    rw [hlog, unanswered_mute hes] at hlast
    obtain ⟨hk, hs⟩ := h.gone (hholder ▸ hg) failed k hlast
    refine ⟨hk, ?_⟩
    cases hs' : l'.stopping with
    | true => rfl
    | false => rw [hstopping hs'] at hs; cases hs

theorem unaccepted (hpolls : AllTimely o exact l'.log) (hlog : accepted l'.log = false)
    (hholder : l'.holder.worker? = none) : Rhythm o exact l' where
  unmet _ := hlog
  polls := hpolls
  inStep w stage hw := by
    rw [hw] at hholder
    cases hholder
  gone _ failed k hlast := by
    rw [unanswered_of_not_accepted hlog] at hlast
    cases hlast

theorem working {w : Connection.Worker} {stage : WorkerStage} (hpolls : AllTimely o exact l'.log)
    (hholder : l'.holder = .worker w stage) (hworker : InStep o exact l' w stage) :
    Rhythm o exact l' where
  unmet ho := by
    rw [hholder] at ho
    cases ho
  polls := hpolls
  inStep w' stage' hw := by
    cases hholder.symm.trans hw
    exact hworker
  gone hg := by cases hholder.symm.trans hg

theorem renewed (h : AllTimely o exact l.log) {es : Log} (hes : ∀ e ∈ es, e.2.isMute = true)
    {e : Entry} (he : e = .polled ∨ e.isMute = true)
    (hlog : l'.log = (l.clock, e) :: (es ++ (l.clock, .took (.ok .connAck)) :: l.log))
    {w : Connection.Worker} {stage : WorkerStage} (hholder : l'.holder = .worker w stage)
    (hbackoff : w.backoff = .new o.backoff) (hpoint : w.point = .listening)
    (hstage : ∀ limit, stage ≠ .resting limit) : Rhythm o exact l' := by
  let log := es ++ (l.clock, Entry.took (.ok .connAck)) :: l.log
  have htimely : AllTimely o exact log := (h.other (by simp)).mute hes
  have hmet : accepted log = true := accepted_mute hes _
  have hfailures : failures log = 0 := failures_mute hes _
  have hnone : unanswered log = none := unanswered_mute hes _
  have hall : accepted ((l.clock, e) :: log) = true ∧ failures ((l.clock, e) :: log) = 0 ∧
      unanswered ((l.clock, e) :: log) = none ∧ AllTimely o exact ((l.clock, e) :: log) := by
    rcases he with rfl | he
    · exact ⟨hmet, hfailures, rfl, htimely.free l.clock hnone⟩
    · have hone : ∀ e' ∈ [(l.clock, e)], e'.2.isMute = true := by simpa using he
      exact ⟨(accepted_mute hone log).trans hmet, (failures_mute hone log).trans hfailures,
        (unanswered_mute hone log).trans hnone, htimely.mute hone⟩
  obtain ⟨hmet, hfailures, hnone, htimely⟩ := hall
  refine .working (hlog ▸ htimely) hholder (.polling (hlog ▸ hmet) ?_ (hlog ▸ hnone) ?_ hstage)
  · rw [hlog, hbackoff, hfailures]
    rfl
  · rw [hlog]
    exact iff_of_true hpoint hfailures

theorem lost (h : Rhythm o exact l) {w : Connection.Worker} (hh : l.holder = .worker w .polling)
    (hw : w.point = .listening) {e : TransportError}
    (hlog : l'.log = (l.clock, .polled) :: (l.clock, .became .reconnecting) ::
      (l.clock, .took (.error e)) :: l.log)
    (hholder : l'.holder = .worker { w with point := .attempting } .polling) : Rhythm o exact l' := by
  have hbefore := h.inStep w .polling hh
  have hzero : failures l.log = 0 := (hbefore.listens (by simp)).mp hw
  have hlost : unanswered ((l.clock, .became .reconnecting) :: (l.clock, .took (.error e)) ::
      l.log) = some (l.clock, 0) := by
    show (if accepted l.log then some (l.clock, failures l.log) else none) = _
    rw [hbefore.met, hzero]
    rfl
  have htimely : Timely o exact l.clock ((l.clock, .became .reconnecting) ::
      (l.clock, .took (.error e)) :: l.log) := by
    unfold Timely
    rw [hlost]
  have hpolls : AllTimely o exact l'.log := by
    rw [hlog]
    exact ((h.polls.other (by simp)).other (by simp)).cons fun _ => htimely
  refine .working hpolls hholder (.polling (hlog ▸ hbefore.met) ?_ (hlog ▸ rfl) ?_ (by simp))
  · rw [hlog]
    show w.backoff = Backoff.failed o.backoff (failures l.log + 1 - 1)
    rw [hbefore.backoff, hzero]
  · rw [hlog]
    exact iff_of_false (by simp) (Nat.succ_ne_zero _)

theorem paused (h : Rhythm o exact l) {w : Connection.Worker} (hh : l.holder = .worker w .polling)
    (hw : w.point = .attempting) {e : TransportError}
    (hlog : l'.log = (l.clock, .took (.error e)) :: l.log) (hclock : l'.clock = l.clock)
    (hholder : l'.holder = .worker (Lease.paused w) (.resting (l.clock + w.backoff.next.1.ticks))) :
    Rhythm o exact l' := by
  have hbefore := h.inStep w .polling hh
  have hne : failures l.log ≠ 0 := fun hzero => by
    have hlistening := (hbefore.listens (by simp)).mpr hzero
    rw [hw] at hlistening
    cases hlistening
  obtain ⟨k, hk⟩ := Nat.exists_eq_succ_of_ne_zero hne
  have hbackoff : w.backoff = Backoff.failed o.backoff k := by
    rw [hbefore.backoff, hk]
    rfl
  refine .working (hlog ▸ h.polls.other (by simp)) hholder ⟨hlog ▸ hbefore.met, ?_,
    fun hr => absurd rfl (hr _), fun hr => absurd rfl (hr _),
    fun limit hlimit => ⟨l.clock, k, ?_, ?_, ?_, ?_⟩⟩
  · rw [hlog]
    show w.backoff.next.2 = Backoff.failed o.backoff (failures l.log + 1 - 1)
    rw [hbackoff, hk, ← Backoff.failed_succ]
    rfl
  · rw [hlog]
    show (if accepted l.log then some (l.clock, failures l.log) else none) = _
    rw [hbefore.met, hk]
    rfl
  · rw [hlog]
    show failures l.log + 1 = k + 2
    rw [hk]
  · cases hlimit
    rw [hbackoff]
    rfl
  · cases hlimit
    exact fun _ _ => hclock ▸ Nat.le_add_right ..

theorem rested (h : Rhythm o exact l) {w : Connection.Worker} {limit : Nat}
    (hh : l.holder = .worker w (.resting limit)) (hs : l.stopping = false) (hl : limit ≤ l.clock)
    (hlog : l'.log = (l.clock, .polled) :: l.log)
    (hholder : l'.holder = .worker (Connection.workerRested w) .polling) : Rhythm o exact l' := by
  have hbefore := h.inStep w (.resting limit) hh
  obtain ⟨failed, k, hlast, hfailures, hlimit, hexact⟩ := hbefore.rests limit rfl
  have htimely : Timely o exact l.clock l.log := by
    unfold Timely
    rw [hlast]
    exact ⟨hlimit ▸ hl, fun he => hlimit ▸ Nat.le_antisymm (hexact he hs) hl⟩
  have hpolls := h.polls.cons (e := (l.clock, .polled)) fun _ => htimely
  refine .working (hlog ▸ hpolls) hholder
    (.polling (hlog ▸ hbefore.met) (hlog ▸ hbefore.backoff) (hlog ▸ rfl) ?_ (by simp))
  refine iff_of_false (by simp [Connection.workerRested]) ?_
  rw [hlog]
  show failures l.log ≠ 0
  rw [hfailures]
  exact Nat.succ_ne_zero _

/-- The worker ends. It leaves no loss behind, since it attempts at once after one. -/
theorem stopped (h : Rhythm o exact l) {w : Connection.Worker} {stage : WorkerStage}
    (hh : l.holder = .worker w stage) (hlog : l'.log = (l.clock, .became .disconnected) :: l.log)
    (hholder : l'.holder = .gone) (hs : l'.stopping = true) : Rhythm o exact l' where
  unmet ho := by
    rw [hholder] at ho
    cases ho
  polls := hlog ▸ h.polls.other (by simp)
  inStep w stage hw := by cases hholder.symm.trans hw
  gone _ failed k hlast := by
    have hbefore := h.inStep w stage hh
    refine ⟨fun hk => ?_, hs⟩
    rw [hlog] at hlast
    have hlast : unanswered l.log = some (failed, k) := hlast
    by_cases hstage : ∀ limit, stage ≠ .resting limit
    · rw [hbefore.busy hstage] at hlast
      cases hlast
    · obtain ⟨limit, hlimit⟩ := not_forall_not.mp hstage
      obtain ⟨_, _, hsome, -⟩ := hbefore.rests limit hlimit
      rw [hsome, hk] at hlast
      cases hlast

theorem step (hstep : Step o exact l l') (h : Rhythm o exact l) : Rhythm o exact l' := by
  have hcall {n : Nat} (hh : l.holder = .call n) : accepted l.log = false :=
    h.unmet (by rw [hh]; rfl)
  have hbusy (limit : Nat) : WorkerStage.polling ≠ .resting limit := by simp
  have hpass := passLog_mute (o := o) l.clock
  have hpass' : ∀ e ∈ passLog o l.clock ++ [(l.clock, .became .connected)], e.2.isMute = true :=
    List.forall_mem_append.mpr ⟨hpass, by simp [Entry.isMute]⟩
  cases hstep with
  -- no poll begins or ends
  | reach time hexact =>
    refine h.mute [] (by simp) rfl rfl id fun he hs w limit hw hclock => ?_
    exact Nat.max_le.mpr ⟨hclock, hexact he hs w limit hw⟩
  | refuse n hh =>
    exact h.mute [(l.clock, .returned n _)] (by simp [Entry.isMute]) rfl rfl id
      (fun _ _ _ _ _ => id)
  | finish =>
    exact h.mute [(l.clock, .became .disconnected)] (by simp [Entry.isMute]) rfl rfl id
      (fun _ _ _ _ _ => id)
  | halt =>
    exact h.mute [] (by simp) rfl rfl (fun hs => by cases hs) (fun _ _ _ _ _ => id)
  -- a connect call has the link, before which the broker never accepted
  | take n hh =>
    have hlog : accepted l.log = false := h.unmet (by rw [hh]; rfl)
    exact unaccepted ((h.polls.other (by simp)).free l.clock (unanswered_of_not_accepted hlog)) hlog
      rfl
  | turn n p rest hh hq hp =>
    obtain ⟨hlog, -, -, hpolls⟩ := h.polls.heard hp l.clock
    exact unaccepted hpolls (hlog.trans (hcall hh)) (by rw [hh]; rfl)
  | fail n e rest hh hq =>
    exact unaccepted (((h.polls.other (by simp)).other (by simp)).other (by simp)) (hcall hh) rfl
  | drop n hh => exact unaccepted h.polls (hcall hh) rfl
  | accept n rest hh hq =>
    refine renewed h.polls hpass' (.inr rfl) ?_ (e := .returned n (.ok ())) rfl rfl rfl (by simp)
    rw [List.append_assoc]
    exact log_enter_passThen _ [.took (.ok .connAck), .became .connected] _
  -- the worker has the link
  | wake w hh hs =>
    have hw := h.inStep w .fresh hh
    have hnone := hw.busy (by simp)
    exact .working (h.polls.free l.clock hnone) rfl
      (.polling hw.met hw.backoff rfl (hw.listens (by simp)) hbusy)
  | hear w p rest hh hs hq hp =>
    have hw := h.inStep w .polling hh
    obtain ⟨hlog, hfailures, hnone, hpolls⟩ := h.polls.heard hp l.clock
    exact .working hpolls hh (.polling (hlog.trans hw.met) (hfailures ▸ hw.backoff) hnone
      (hfailures ▸ hw.listens hbusy) hbusy)
  | renew w rest hh hs hw hq =>
    have hbefore := h.inStep w .polling hh
    have hzero := (hbefore.listens hbusy).mp hw
    refine renewed h.polls hpass (.inl rfl) ?_ hh ?_ hw hbusy
    · exact log_enter_passThen _ [.took (.ok .connAck)] .polled
    · rw [hbefore.backoff, hzero]
      rfl
  | lose w e rest hh hs hw hq => exact h.lost hh hw rfl rfl
  | regain w rest hh hs hw hq =>
    have hbefore := h.inStep w .polling hh
    refine renewed h.polls hpass' (.inl rfl) ?_ rfl ?_ rfl hbusy
    · rw [List.append_assoc]
      exact log_enter_passThen _ [.took (.ok .connAck), .became .connected] .polled
    · show w.backoff.reset = _
      rw [hbefore.backoff, Backoff.reset_failed]
  | pause w e rest hh hs hw hq => exact h.paused hh hw rfl rfl rfl
  | rest w limit hh hs hl => exact h.rested hh hs hl rfl rfl
  | stop w stage hh hs => exact h.stopped hh rfl rfl hs

end Rhythm

theorem Reached.rhythm {fed : List Polled} {l : Lease} (h : Reached o exact fed l) :
    Rhythm o exact l := by
  induction h with
  | start =>
    refine .unaccepted (fun newer time older heq => ?_) rfl rfl
    cases newer <;> cases heq
  | step _ hstep ih => exact ih.step hstep
  | feed _ es ih =>
    exact ⟨ih.unmet, ih.polls, fun w stage hw => (ih.inStep w stage hw).mute [] (by simp) rfl
      fun _ hs _ _ => ⟨hs, id⟩, ih.gone⟩

/-- What is due after an error that nothing was polled since. -/
theorem Rhythm.due {l : Lease} (h : Rhythm o exact l) {failed k : Nat}
    (hlast : unanswered l.log = some (failed, k)) : ∃ j, k = j + 1 ∧ (l.stopping = true ∨
      ∃ w, l.holder = .worker w (.resting (failed + (Backoff.delay o.backoff j).ticks)) ∧
        (exact → l.stopping = false → l.clock ≤ failed + (Backoff.delay o.backoff j).ticks)) := by
  have hmet : l.holder.isOpen ≠ true := fun ho => by
    rw [unanswered_of_not_accepted (h.unmet ho)] at hlast
    cases hlast
  cases hh : l.holder with
  | home | call =>
    rw [hh] at hmet
    exact absurd rfl hmet
  | gone =>
    obtain ⟨hk, hs⟩ := h.gone hh failed k hlast
    obtain ⟨j, rfl⟩ := Nat.exists_eq_succ_of_ne_zero hk
    exact ⟨j, rfl, .inl hs⟩
  | worker w stage =>
    have hw := h.inStep w stage hh
    by_cases hstage : ∀ limit, stage ≠ .resting limit
    · rw [hw.busy hstage] at hlast
      cases hlast
    · obtain ⟨limit, hlimit⟩ := not_forall_not.mp hstage
      obtain ⟨failed', j, hsome, -, hdue, hexact⟩ := hw.rests limit hlimit
      cases hsome.symm.trans hlast
      refine ⟨j, rfl, .inr ⟨w, by rw [hlimit, hdue], fun he hs => hdue ▸ hexact he hs⟩⟩

end Lease

/-! ## Sessions -/

/-- A worker that rests polls when it runs at the end of its pause or later, and not before. -/
structure Wakes (s : Session σ) (limit : Nat) : Prop where
  late : limit ≤ s.clock → ∀ x, (s.clock, .polled) :: entries s.history <:+
    entries (s.act x (.resume .worker)).history
  early : s.clock < limit → ∀ x, entries (s.act x (.resume .worker)).history = entries s.history

theorem Shows.wakes {s : Session σ} {l : Lease} (h : Shows o s l) {w : Connection.Worker}
    {limit : Nat} (hl : l.holder = .worker w (.resting limit)) (hs : l.stopping = false) :
    Wakes s limit := by
  have hworker : s.worker = some (w, .resting limit) := h.held.worker.trans (by rw [hl]; rfl)
  have hstopping := h.stopping.trans hs
  let s₀ : Session σ := { s with ready := s.ready.filter (· ≠ .worker) }
  have hsees : Sees o s₀ l := ⟨h.options, h.status, h.stopping, h.queue, h.clock, h.log⟩
  have hact (x : Surroundings σ) : s.act x (.resume .worker) =
      if limit ≤ s.clock then s₀.startPoll x (Connection.workerRested w) else s₀ := by
    show s₀.resumeWorker x = _
    unfold resumeWorker
    simp only [s₀, hworker, hstopping]
    rfl
  constructor
  · intro hlate x
    rw [hact, if_pos hlate]
    obtain ⟨l', hsteps, hshows⟩ := lease_startPoll x True (Connection.workerRested w) hsees
      ⟨(h.manned hl).home, (h.manned hl).calls⟩ hs (by simp [Connection.workerRested])
    rw [hshows.log, h.log, h.clock]
    exact Lease.Steps.suffix hsteps
  · intro hearly x
    rw [hact, if_neg (Nat.not_le.mpr hearly)]

/-- The delays of a backoff are the doubled initial one, cut off at the end, after any calls. In every
run of a connection that was not connected yet, an error of a connection that stood (no error came
since the broker accepted) is followed at once by a poll, which begins an attempt. After any other
error, the `k + 1`-st since the loss, the next poll begins when the delay for `k` failures is over, not
before, and exactly then if the clock is punctual; until then the worker rests, unless a shutdown was
requested. With the configuration's bounds no such delay is empty. -/
theorem reconnects_follow_the_backoff {hub : Hub σ} (hc : hub.connection = { options := o })
    (ms : List (Move σ)) :
    let s := (new hub).after ms
    let due (failed k : Nat) : Nat := failed + (Backoff.delay o.backoff k).ticks
    (∀ b cs, (Backoff.after b cs).next.1.nanos =
      min (b.initial.nanos * 2 ^ Backoff.streak cs) b.max.nanos) ∧
    (∀ newer time between failed e older, entries s.history =
        newer ++ (time, .polled) :: (between ++ (failed, .took (.error e)) :: older) →
      (∀ entry ∈ between, entry.2.isMute = true) → accepted older = true →
      (failures older = 0 → time = failed) ∧
      ∀ k, failures older = k + 1 →
        due failed k ≤ time ∧ ((new hub).Punctual ms → time = due failed k)) ∧
    (∀ between failed e older,
      entries s.history = between ++ (failed, .took (.error e)) :: older →
      (∀ entry ∈ between, entry.2.isMute = true) → accepted older = true →
      ∃ k, failures older = k + 1 ∧ (s.hub.connection.stopping = false →
        (∃ w, s.worker = some (w, .resting (due failed k))) ∧ Wakes s (due failed k) ∧
        ((new hub).Punctual ms → s.clock ≤ due failed k))) ∧
    ∀ c k, c.fault? = none → o = .ofConfig c →
      let wait := (Backoff.delay o.backoff k).ticks
      c.reconnect.initialMs.toNat ≤ wait ∧ wait ≤ c.reconnect.maxMs.toNat ∧ 1 ≤ wait := by
  intro s due
  obtain ⟨l, hl, hshows⟩ : ∃ l, Reached o ((new hub).Punctual ms) (fed ms) l ∧ Shows o s l :=
    lease_after hc ms id
  have hlast {between older : Log} {failed : Nat} {e : TransportError}
      (hmute : ∀ entry ∈ between, entry.2.isMute = true) (hmet : accepted older = true) :
      unanswered (between ++ (failed, .took (.error e)) :: older) = some (failed, failures older) := by
    rw [unanswered_mute hmute]
    show (if accepted older then _ else none) = _
    rw [hmet]
    rfl
  refine ⟨fun b cs => ?_, ?_, ?_, ?_⟩
  · rw [Backoff.next_after, Backoff.nanos_delay]
  · intro newer time between failed e older hlog hmute hmet
    have htimely := hl.rhythm.polls newer time _ (hshows.log.symm.trans hlog)
    unfold Lease.Timely at htimely
    rw [hlast hmute hmet] at htimely
    constructor
    · intro hzero
      rw [hzero] at htimely
      exact htimely
    · intro k hk
      rw [hk] at htimely
      exact htimely
  · intro between failed e older hlog hmute hmet
    have hun : unanswered l.log = some (failed, failures older) := by
      rw [← hshows.log, hlog, hlast hmute hmet]
    obtain ⟨k, hk, hrests⟩ := hl.rhythm.due hun
    refine ⟨k, hk, fun hs => ?_⟩
    have hs : l.stopping = false := hshows.stopping.symm.trans hs
    rcases hrests with hstopping | ⟨w, hw, hexact⟩
    · cases hs.symm.trans hstopping
    · refine ⟨⟨w, ?_⟩, hshows.wakes hw hs, fun he => ?_⟩
      · rw [hshows.held.worker, hw]
        rfl
      · rw [hshows.clock]
        exact hexact he hs
  · rintro c k hfault rfl
    exact Config.delay_bounds hfault k

/-- The connection is lost and the first attempt fails at once. The next one begins a second later. -/
theorem reconnects_follow_the_backoff_second :
    let ms := trialMoves [.start .connect none, .feed [.ok .connAck, .error (.connection "lost"),
      .error (.connection "refused")], .resume (.task 1), .resume .worker, .reach 1000,
      .resume .worker]
    let s := (new idleHub).after ms
    (new idleHub).Punctual ms ∧ (entries s.history).head? = some (1000, .polled) ∧
    1000 = 0 + (Backoff.delay idleHub.connection.options.backoff 0).ticks := by
  intro ms s
  have hpunctual : (new idleHub).Punctual ms :=
    .cons trivial (.cons trivial (.cons trivial (.cons trivial (.cons ⟨rfl, by decide +kernel⟩
      (.cons trivial (.nil _))))))
  have hlog : entries s.history = [] ++ (1000, .polled) :: ([] ++ (0, .took (.error (.connection
      "refused"))) :: (entries s.history).drop 2) := rfl
  obtain ⟨-, hpolls, -⟩ := reconnects_follow_the_backoff
    (rfl : idleHub.connection = { options := idleHub.connection.options }) ms
  have hsecond := hpolls [] 1000 [] 0 (.connection "refused") _ hlog (by simp) (by decide +kernel)
  exact ⟨hpunctual, rfl, (hsecond.2 0 (by decide +kernel)).2 hpunctual⟩

end DeviceHub.Session
