import DeviceHub.Proofs.Command.Launch
import DeviceHub.Proofs.Dispatcher.Outcome
import DeviceHub.Proofs.Session.Desk

/-!
# Every action changes the desk in steps

* `Calm`        from one session to another the desk changes in steps, and no task does;
* `calm_performAll`, `steps_pollConnect`, `steps_resumeWorker`   the connection;
* `steps_race`, `steps_handed`, `steps_send`   sends;
* `steps_act`, `steps_after`   actions and runs.
-/

namespace DeviceHub.Session

open Desk (Steps Step)

variable {σ : Type} {ids : Nat → String} {direct : Prop}

theorem steps_of_eq {d d' : Desk} (h : d' = d) : Steps ids direct d d' := h ▸ .refl

theorem steps_one {d d' : Desk} (h : Step ids direct d d') : Steps ids direct d d' := .single h

theorem steps_note (s : Session σ) {h : Happening} (hq : h.isQuiet = true) :
    Steps ids direct s.desk (s.note h).desk := steps_one (.note s.desk s.clock h hq)

/-! ## The connection -/

/-- The desk changes in steps, and no task starts, goes on or ends. -/
structure Calm (ids : Nat → String) (direct : Prop) (s s' : Session σ) : Prop where
  steps : Steps ids direct s.desk s'.desk
  tasks : s'.desk.task? = s.desk.task?

namespace Calm

theorem of_eq {s s' : Session σ} (h : s'.desk = s.desk) : Calm ids direct s s' :=
  ⟨steps_of_eq h, congrArg Desk.task? h⟩

theorem trans {s s' s'' : Session σ} (h : Calm ids direct s s') (h' : Calm ids direct s' s'') :
    Calm ids direct s s'' := ⟨h.steps.trans h'.steps, h'.tasks.trans h.tasks⟩

theorem note (s : Session σ) {h : Happening} (hq : h.isQuiet = true) :
    Calm ids direct s (s.note h) := ⟨steps_note s hq, rfl⟩

theorem foldl {α : Type} {f : Session σ → α → Session σ}
    (hf : ∀ s a, Calm ids direct s (f s a)) (as : List α) (s : Session σ) :
    Calm ids direct s (as.foldl f s) := by
  induction as generalizing s with
  | nil => exact .of_eq rfl
  | cons a as ih => exact (hf s a).trans (ih (f s a))

theorem send? {s s' : Session σ} (h : Calm ids direct s s') (n : Nat) :
    s'.desk.send? n = s.desk.send? n := by
  show (s'.desk.task? n).bind _ = (s.desk.task? n).bind _
  rw [h.tasks]

end Calm

section
variable (x : Surroundings σ) (s : Session σ)

theorem desk_receive_forwarded {topic : String} {payload : List UInt8} {a : Message.Ack}
    (ho : Dispatcher.outcomeOf topic payload = .taken (some a)) :
    (s.receive x topic payload).desk = s.desk.deliver topic payload a s.clock := by
  have hsnd := Hub.onMessage_snd x.sink x.now s.hub topic payload
  have hpending := Hub.onMessage_pending x.sink x.now s.hub topic payload
  unfold receive
  generalize s.hub.onMessage x.sink x.now topic payload = r at hsnd hpending ⊢
  obtain ⟨h, o⟩ := r
  obtain rfl : o = .taken (some a) := hsnd.trans ho
  rw [ho] at hpending
  show (wakeSends _ a.id).desk = _
  rw [desk_wakeSends]
  exact congrArg (fun p => Desk.mk p _ _ _ _) hpending

theorem desk_receive_kept {topic : String} {payload : List UInt8}
    (ho : ∀ a, Dispatcher.outcomeOf topic payload ≠ .taken (some a)) :
    (s.receive x topic payload).desk =
      s.desk.note s.clock (.received topic payload (Dispatcher.outcomeOf topic payload)) := by
  have hsnd := Hub.onMessage_snd x.sink x.now s.hub topic payload
  have hpending := Hub.onMessage_pending x.sink x.now s.hub topic payload
  unfold receive
  generalize s.hub.onMessage x.sink x.now topic payload = r at hsnd hpending ⊢
  rw [← hsnd] at hpending ho ⊢
  obtain ⟨h, (_ | a) | why⟩ := r
  · exact congrArg (fun p => Desk.mk p _ _ _ _) hpending
  · exact absurd rfl (ho a)
  · exact congrArg (fun p => Desk.mk p _ _ _ _) hpending

theorem calm_receive (topic : String) (payload : List UInt8) :
    Calm ids direct s (s.receive x topic payload) := by
  by_cases ho : ∃ a, Dispatcher.outcomeOf topic payload = .taken (some a)
  · obtain ⟨a, ho⟩ := ho
    obtain ⟨e, hread⟩ := Dispatcher.outcomeOf_eq_forwarded_iff.mp ho
    have hdesk := desk_receive_forwarded x s ho
    exact ⟨hdesk ▸ steps_one (.deliver _ topic payload e a _ hread), by rw [hdesk]; rfl⟩
  · have hdesk := desk_receive_kept x s (not_exists.mp ho)
    have hq : (Happening.received topic payload (Dispatcher.outcomeOf topic payload)).isQuiet := by
      rcases hout : Dispatcher.outcomeOf topic payload with (_ | a) | why
      · rfl
      · exact absurd ⟨a, hout⟩ ho
      · rfl
    exact ⟨hdesk ▸ steps_one (.note _ _ _ hq), by rw [hdesk]; rfl⟩

theorem calm_perform (e : Connection.Effect) : Calm ids direct s (s.perform x e) := by
  cases e with
  | deliver topic payload => exact calm_receive x s topic payload
  | subscribe => exact Calm.foldl (fun s t => Calm.note s rfl) _ s
  | become new => exact ⟨steps_one (.note s.desk s.clock _ rfl), rfl⟩

theorem calm_performAll (es : List Connection.Effect) (c : Connection) :
    Calm ids direct s (s.performAll x es c) :=
  (Calm.foldl (fun s e => calm_perform x s e) es s).trans (Calm.of_eq rfl)

theorem calm_polled (p : Polled) (rest : List Polled) (es : List Connection.Effect)
    (c : Connection) :
    Calm ids direct s (({ s with link := rest }.note (.took p)).performAll x es c) :=
  have htook : Calm ids direct s ({ s with link := rest }.note (.took p)) :=
    ⟨steps_one (.note s.desk s.clock _ rfl), rfl⟩
  htook.trans (calm_performAll x _ es c)

end

theorem steps_finish {s : Session σ} {n : Nat} {r : Result} (hn : s.desk.send? n = none)
    (hq : (Happening.ended n r).isQuiet = true) : Steps ids direct s.desk (s.finish n r).desk := by
  rw [desk_finish]
  exact (steps_one (.close _ n hn)).trans (steps_one (.note _ _ _ hq))

theorem desk_spawnWorker (s : Session σ) : s.spawnWorker.desk = s.desk := by
  unfold spawnWorker
  rw [desk_wake]
  rfl

theorem steps_pollConnect (x : Surroundings σ) {n : Nat} (events : List Polled) {s : Session σ}
    (hn : s.desk.send? n = none) : Steps ids direct s.desk (pollConnect x n events s).desk := by
  induction events generalizing s with
  | nil => exact .refl
  | cons p rest ih =>
    unfold pollConnect
    rcases s.hub.connection.connectPolled p with ⟨c, es, point⟩
    have hcalm : Calm ids direct s _ := calm_polled x s p rest es c
    have hn' := (hcalm.send? n).trans hn
    cases point with
    | polling => exact (hcalm.steps.trans (steps_note _ rfl)).trans (ih hn')
    | connected =>
      refine hcalm.steps.trans ?_
      rw [← desk_spawnWorker]
      exact steps_finish (by rw [desk_spawnWorker]; exact hn') rfl
    | failed e => exact hcalm.steps.trans (steps_finish hn' rfl)

theorem steps_pollWorker (x : Surroundings σ) (w : Connection.Worker) (events : List Polled)
    (s : Session σ) : Steps ids direct s.desk (pollWorker x w events s).desk := by
  induction events generalizing s w with
  | nil => exact .refl
  | cons p rest ih =>
    unfold pollWorker
    rcases s.hub.connection.workerPolled w p with ⟨c, es, w'⟩
    have hcalm : Calm ids direct s _ := calm_polled x s p rest es c
    have hagain (w : Connection.Worker) :=
      hcalm.steps.trans ((steps_note (h := .polled) _ rfl).trans (ih w _))
    simp only
    split
    · split
      · exact hagain _
      · exact hcalm.steps
    · exact hagain _

theorem steps_startPoll (x : Surroundings σ) (w : Connection.Worker) (s : Session σ) :
    Steps ids direct s.desk (startPoll x w s).desk :=
  (steps_note s rfl).trans (steps_pollWorker x w s.link _)

theorem steps_stopWorker (x : Surroundings σ) (s : Session σ) :
    Steps ids direct s.desk (s.stopWorker x).desk := by
  unfold stopWorker
  rcases s.hub.connection.workerStopped with ⟨c, es⟩
  rw [desk_wakeTasks]
  exact (calm_performAll x s es c).steps

theorem steps_resumeWorker (x : Surroundings σ) (s : Session σ) :
    Steps ids direct s.desk (s.resumeWorker x).desk := by
  unfold resumeWorker
  split
  · exact .refl
  · split
    · exact steps_stopWorker x s
    · split
      · exact steps_startPoll x _ s
      · exact steps_pollWorker x _ _ s
      · split
        · exact steps_startPoll x _ s
        · exact .refl

/-! ## Sends -/

theorem desk_finishSend (s : Session σ) (n : Nat) (t : Task)
    (r : Except Command.Error Message.Ack) : ∃ q : Result, q.Shows r ∧
      (s.finishSend n t r).desk = s.desk.resolve n r q s.clock := by
  refine ⟨if t.served then .responded (Service.sent r) else .sent r, ?_, desk_finish _ n _⟩
  split
  · exact Or.inr rfl
  · exact Or.inl rfl

theorem steps_finishSend {s : Session σ} {n : Nat} {r : Except Command.Error Message.Ack} {d : Desk}
    (h : ∀ q : Result, q.Shows r → Step ids direct d (s.desk.resolve n r q s.clock)) (t : Task) :
    Steps ids direct d (s.finishSend n t r).desk := by
  obtain ⟨q, hq, hdesk⟩ := desk_finishSend s n t r
  rw [hdesk]
  exact steps_one (h q hq)

section
variable (x : Surroundings σ) (s : Session σ) (n : Nat) {t : Task} {send : Command.Send}
  {limit : Nat}

theorem race_some {r : Except Command.Error Message.Ack}
    (hr : send.race (t.cancelled = some true) (s.hub.pending.received? send.id) (limit ≤ s.clock)
      x.now = some r) :
    s.race x n t send limit = (s.note (.looked n (t.cancelled = some true) (limit ≤ s.clock)
      x.now)).finishSend n t r := by
  unfold race
  simp only
  split
  · rename_i hq
    cases hr.symm.trans hq
    rfl
  · rename_i hq
    cases hr.symm.trans hq

theorem race_none
    (hr : send.race (t.cancelled = some true) (s.hub.pending.received? send.id) (limit ≤ s.clock)
      x.now = none) :
    s.race x n t send limit =
      s.note (.looked n (t.cancelled = some true) (limit ≤ s.clock) x.now) := by
  unfold race
  simp only
  split
  · rename_i hq
    cases hr.symm.trans hq
  · rfl

end

section
variable {s : Session σ} {n : Nat} {t₀ : Task} (ht : s.desk.task? n = some t₀)
include ht

theorem steps_put (t : Task) (hs : t.send? = t₀.send?) :
    Steps ids direct s.desk (s.put n t).desk := by
  rw [desk_put]
  exact steps_one (.put _ n t₀ t ht hs)

theorem steps_race (x : Surroundings σ) (t : Task) {send : Command.Send} (limit : Nat)
    (hs : t₀.send? = some send) : Steps ids direct s.desk (s.race x n t send limit).desk := by
  cases hr : send.race (t.cancelled = some true) (s.hub.pending.received? send.id)
    (limit ≤ s.clock) x.now with
  | some r =>
    rw [race_some x s n hr]
    exact steps_finishSend (fun q => .settle s.desk n t₀ send _ _ x.now r q s.clock ht hs hr) t
  | none =>
    rw [race_none x s n hr]
    exact steps_one (.look s.desk n t₀ send _ _ x.now s.clock ht hs hr)

theorem steps_handed (x : Surroundings σ) (t : Task) {send : Option Command.Send}
    (r : Except PublishError Unit) (hs : t₀.send? = send) :
    Steps ids direct s.desk (s.handed x n t send r).desk := by
  cases send with
  | none =>
    have hn : s.desk.send? n = none := by
      show (s.desk.task? n).bind _ = none
      rw [ht]
      exact hs
    exact steps_finish hn rfl
  | some send =>
    cases r with
    | error e => exact steps_finishSend (fun q => .fail s.desk n t₀ send e q s.clock ht hs) t
    | ok u =>
      let t' : Task := { t with stage := .racing send (s.clock + send.limit.ticks) }
      have hput : ((s.note (.handed n (.ok u))).put n t').desk =
          (s.desk.note s.clock (.handed n (.ok ()))).put n t' := desk_put _ n t'
      have hstep : Step ids direct s.desk ((s.note (.handed n (.ok u))).put n t').desk :=
        hput ▸ .hand s.desk n t₀ t' send s.clock ht hs rfl
      refine (steps_one hstep).trans ?_
      have ht' : ((s.note (.handed n (.ok u))).put n t').desk.task? n = some t' := by
        rw [hput]
        show (if n = n then (s.desk.task? n).map _ else _) = _
        rw [if_pos rfl, ht]
        rfl
      exact steps_race (s := ((s.note (.handed n (.ok u))).put n t').alarm _ _) ht' x t _ rfl

end

theorem steps_askClient (x : Surroundings σ) {s : Session σ} {n : Nat} {t₀ : Task}
    (ht : s.desk.task? n = some t₀) (t : Task) {send : Option Command.Send}
    (hs : t₀.send? = send) :
    Steps ids direct s.desk
      (match s.client.publish? with
      | some r => s.handed x n t send (PublishError.ofClient r)
      | none =>
        let limit := s.clock + s.hub.connection.options.publishLimit.ticks
        if limit ≤ s.clock then s.handed x n t send (.error s.hub.connection.publishExpired)
        else (s.put n { t with stage := .handing send limit }).alarm limit (.task n)).desk := by
  split
  · exact steps_handed ht x t _ hs
  · simp only
    split
    · exact steps_handed ht x t _ hs
    · exact steps_put ht _ hs.symm

theorem steps_publish (x : Surroundings σ) {s : Session σ} {n : Nat} {t₀ : Task}
    (ht : s.desk.task? n = some t₀) (t : Task) (hs : t₀.send? = none) (p : Publication) :
    Steps ids direct s.desk (s.publish x n t none p).desk := by
  unfold publish
  split
  · exact steps_handed ht x t _ hs
  · exact (steps_note s rfl).trans (steps_askClient x (s := s.note (.published p none)) ht t hs)

theorem steps_send (x : Surroundings σ) (hids : x.idOf = ids) {s : Session σ} {n : Nat} {t₀ : Task}
    (ht : s.desk.task? n = some t₀) (hs : t₀.send? = none) (t : Task) (r : Command.Request) :
    Steps ids direct s.desk (s.send x n t r).desk := by
  unfold send
  split
  · rename_i e he
    obtain ⟨msg, rfl⟩ := Command.Request.launch_error he
    exact steps_finishSend (fun q => .refuse s.desk n t₀ msg q s.clock ht hs) t
  · rename_i send c hlaunch
    obtain ⟨hsend, hcommand, hdevice, hcdevice, -⟩ := Command.Request.launch_ok hlaunch
    have hid : send.id = ids s.desk.commands := hsend.trans (congrFun hids _)
    let t' : Task := { t with stage := .handing (some send) s.clock }
    have hdesk : (s.register n t' send c).desk = s.desk.register n t' send c s.clock :=
      desk_register s n t' send c
    have ht' : (s.register n t' send c).desk.task? n = some t' := by
      rw [hdesk]
      show (if n = n then (s.desk.task? n).map _ else _) = _
      rw [if_pos rfl, ht]
      rfl
    show Steps ids direct s.desk
      ((s.register n t' send c).publish x n t' (some send) (Command.publication c)).desk
    unfold publish
    split
    · -- the connection does not stand, and the send ends at once
      rename_i e he
      have hbounce (q : Result) (hq : q.Shows (.error (.ofPublish e))) :
          Step ids direct s.desk ((s.register n t' send c).desk.fail n e q s.clock) := hdesk ▸
        .bounce s.desk n t₀ t' send c e q s.clock ht hs rfl hid (hcommand.trans hsend.symm)
          (hcdevice.trans hdevice.symm) hq
      exact steps_finishSend hbounce t'
    · have hregister : Step ids direct s.desk ((s.register n t' send c).desk.note s.clock
          (.published (Command.publication c) (some send.id))) := hdesk ▸
        .register s.desk n t₀ t' send c s.clock ht hs rfl hid (hcommand.trans hsend.symm)
          (hcdevice.trans hdevice.symm)
      exact (steps_one hregister).trans (steps_askClient x
        (s := (s.register n t' send c).note (.published (Command.publication c) (some send.id)))
        ht' t' rfl)

theorem steps_serve (x : Surroundings σ) (hids : x.idOf = ids) {s : Session σ} {n : Nat} {t₀ : Task}
    (ht : s.desk.task? n = some t₀) (hs : t₀.send? = none) (t : Task) (r : Service.Request) :
    Steps ids direct s.desk (s.serve x n t r).desk := by
  have hn : s.desk.send? n = none := by
    show (s.desk.task? n).bind _ = none
    rw [ht]
    exact hs
  unfold serve
  split
  · exact steps_finish hn rfl
  · exact steps_finish hn rfl
  · exact steps_send x hids ht hs _ _

/-! ## Parties -/

theorem desk_wakeIf (s : Session σ) (b : Bool) (p : Party) :
    (if b then s.wake p else s).desk = s.desk := by
  split
  · exact desk_wake s p
  · rfl

section
variable (x : Surroundings σ) {s : Session σ} {n : Nat} {t : Task} (ht : s.desk.task? n = some t)
include ht

theorem send?_of_stage (hs : t.send? = none) : s.desk.send? n = none := by
  show (s.desk.task? n).bind _ = none
  rw [ht]
  exact hs

theorem steps_connect (hs : t.send? = none) : Steps ids direct s.desk (s.connect x n t).desk := by
  have hn := send?_of_stage ht hs
  unfold connect
  split
  · exact steps_finish hn rfl
  · rename_i c es _
    have hcalm : Calm ids direct s (s.performAll x es c) := calm_performAll x s es c
    have ht' : (s.performAll x es c).desk.task? n = some t := by rw [hcalm.tasks, ht]
    refine hcalm.steps.trans ((steps_put ht' { t with stage := .polling } hs.symm).trans ?_)
    refine (steps_note (h := .polled) _ rfl).trans (steps_pollConnect x _ ?_)
    show ((Session.put _ n _).desk.task? n).bind _ = none
    rw [desk_put]
    show (if n = n then Option.map _ _ else _).bind _ = none
    rw [if_pos rfl, ht']
    rfl

theorem steps_finishShutdown (hs : t.send? = none) :
    Steps ids direct s.desk (s.finishShutdown x n).desk := by
  have hn := send?_of_stage ht hs
  unfold finishShutdown
  simp only
  rcases (s.note .disconnected).hub.connection.finishShutdown with ⟨c, es⟩
  have hcalm : Calm ids direct (s.note .disconnected) ((s.note .disconnected).performAll x es c) :=
    calm_performAll x _ es c
  exact ((steps_note s rfl).trans hcalm.steps).trans
    (steps_finish ((hcalm.send? n).trans hn) rfl)

theorem steps_shutdown (hs : t.send? = none) :
    Steps ids direct s.desk (s.shutdown x n t).desk := by
  unfold shutdown
  rcases s.hub.connection.beginShutdown with ⟨c, waits⟩
  simp only
  have hdesk := desk_wakeIf { s with hub := { s.hub with connection := c } } s.worker.isSome .worker
  generalize (if s.worker.isSome then _ else _ : Session σ) = s' at hdesk ⊢
  have ht' : s'.desk.task? n = some t := by rw [hdesk]; exact ht
  refine (steps_of_eq hdesk).trans ?_
  split
  · exact steps_put ht' _ hs.symm
  · exact steps_finishShutdown x ht' hs

theorem steps_begin (hids : x.idOf = ids) (hs : t.send? = none) (job : Job) :
    Steps ids direct s.desk (s.begin x n t job).desk := by
  cases job with
  | connect => exact steps_connect x ht hs
  | shutdown => exact steps_shutdown x ht hs
  | send r => exact steps_send x hids ht hs t r
  | publish p => exact steps_publish x ht t hs p
  | serve r => exact steps_serve x hids ht hs t r

theorem steps_resumeTask (hids : x.idOf = ids) :
    Steps ids direct s.desk (s.resumeTask x n t).desk := by
  unfold resumeTask
  cases hstage : t.stage with
  | fresh job => exact steps_begin x ht hids (by rw [Task.send?, hstage]) job
  | polling => exact steps_pollConnect x _ (send?_of_stage ht (by rw [Task.send?, hstage]))
  | joining =>
    simp only
    split
    · exact steps_finishShutdown x ht (by rw [Task.send?, hstage])
    · exact .refl
  | handing send limit =>
    simp only
    split
    · exact steps_handed ht x t _ (by rw [Task.send?, hstage])
    · exact .refl
  | racing send limit => exact steps_race ht x t limit (by rw [Task.send?, hstage])

end

theorem steps_answer (x : Surroundings σ) (s : Session σ) (n : Nat)
    (r : Except TransportError Unit) : Steps ids direct s.desk (s.answer x n r).desk := by
  unfold answer
  split
  · exact .refl
  · rename_i t ht
    split
    · rename_i hstage
      exact steps_handed ht x t _ (by rw [Task.send?, hstage])
    · exact .refl

section
variable (x : Surroundings σ) (s : Session σ) {n : Nat}

theorem resume_task_some {t : Task} (ht : s.task? n = some t) : s.resume x (.task n) =
    ({ s with ready := s.ready.filter (· ≠ .task n) } : Session σ).resumeTask x n t := by
  unfold resume
  simp only
  split
  · rename_i u hu
    cases ht.symm.trans hu
    rfl
  · rename_i hu
    cases ht.symm.trans hu

theorem resume_task_none (ht : s.task? n = none) :
    s.resume x (.task n) = { s with ready := s.ready.filter (· ≠ .task n) } := by
  unfold resume
  simp only
  split
  · rename_i hu
    cases ht.symm.trans hu
  · rfl

end

theorem steps_resume (x : Surroundings σ) (hids : x.idOf = ids) (s : Session σ) (p : Party) :
    Steps ids direct s.desk (s.resume x p).desk := by
  cases p with
  | worker =>
    have hworker (s : Session σ) : Steps ids direct s.desk (s.resumeWorker x).desk :=
      steps_resumeWorker x s
    exact hworker { s with ready := s.ready.filter (· ≠ .worker) }
  | task n =>
    cases ht : s.task? n with
    | some t =>
      rw [resume_task_some x s ht]
      exact steps_resumeTask x (s := { s with ready := s.ready.filter (· ≠ .task n) }) ht hids
    | none =>
      rw [resume_task_none x s ht]
      exact .refl

/-! ## Actions -/

theorem steps_start (s : Session σ) (job : Job) (token : Option Bool) :
    Steps ids direct s.desk (s.start job token).desk := by
  rw [desk_start]
  exact steps_one (.start s.desk _ rfl)

theorem steps_cancel (s : Session σ) (n : Nat) : Steps ids direct s.desk (s.cancel n).desk := by
  unfold cancel
  split
  · exact .refl
  · rename_i t ht
    have hput : Steps ids direct s.desk
        (s.put n { t with cancelled := t.cancelled.map fun _ => true }).desk :=
      steps_put ht _ rfl
    simp only
    split
    · split
      · rw [desk_wake]
        exact hput
      · exact hput
    · exact hput

theorem steps_drop (s : Session σ) (n : Nat) : Steps ids direct s.desk (s.drop n).desk := by
  unfold drop
  split
  · rename_i t ht
    rw [desk_note, desk_remove]
    exact steps_one (.drop s.desk n t _ ht)
  · exact .refl

theorem desk_feed (s : Session σ) (events : List Polled) : (s.feed events).desk = s.desk := by
  unfold feed
  simp only
  rw [desk_wakeTasks]
  split
  · exact desk_wake _ _
  · rfl

theorem desk_reach (s : Session σ) (time : Nat) : (s.reach time).desk = s.desk := by
  unfold reach
  simp only
  generalize s.timers.filter (fun e => e.1 ≤ time) = due
  have hfold (s : Session σ) :
      (due.foldl (fun s e => s.wake e.2) s).desk = s.desk := by
    induction due generalizing s with
    | nil => rfl
    | cons e due ih => exact (ih (s.wake e.2)).trans (desk_wake s _)
  exact hfold _

/-- Every action changes the desk in steps; an acknowledgement that does not come from the dispatcher
is an action of its own. -/
theorem steps_act (x : Surroundings σ) (hids : x.idOf = ids) (s : Session σ) (a : Action)
    (hdirect : ∀ b, a = .acknowledge b → direct) : Steps ids direct s.desk (s.act x a).desk := by
  cases a with
  | resume p => exact steps_resume x hids s p
  | start job token => exact steps_start s job token
  | cancel n => exact steps_cancel s n
  | drop n => exact steps_drop s n
  | feed events => exact steps_of_eq (desk_feed s events)
  | behave c => exact .refl
  | answer n r => exact steps_answer x s n r
  | acknowledge b =>
    show Steps ids direct s.desk (s.acknowledge b).desk
    rw [desk_acknowledge]
    exact steps_one (.acknowledge s.desk b s.clock (hdirect b rfl))
  | message topic payload => exact (calm_receive x s topic payload).steps
  | reach time => exact steps_of_eq (desk_reach s time)

/-- the moves take their ids from one source -/
def IdsFrom (ids : Nat → String) (ms : List (Move σ)) : Prop := ∀ m ∈ ms, m.1.idOf = ids

theorem steps_after (s : Session σ) (ms : List (Move σ)) (hids : IdsFrom ids ms)
    (hdirect : ∀ m ∈ ms, ∀ b, m.2 = .acknowledge b → direct) :
    Steps ids direct s.desk (s.after ms).desk := by
  induction ms generalizing s with
  | nil => exact .refl
  | cons m ms ih =>
    have hact := steps_act m.1 (hids m List.mem_cons_self) s m.2 (hdirect m List.mem_cons_self)
    exact hact.trans (ih (s.act m.1 m.2) (fun m' h => hids m' (List.mem_cons_of_mem _ h))
      (fun m' h => hdirect m' (List.mem_cons_of_mem _ h)))

end DeviceHub.Session
