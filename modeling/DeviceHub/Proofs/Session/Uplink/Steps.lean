import DeviceHub.Proofs.Command.Launch
import DeviceHub.Proofs.Session.Orderly
import DeviceHub.Proofs.Session.Uplink

/-!
# Every action changes the uplink in steps

* `publication?`, `handovers`, `log`   what the publish calls of an action, and of a run, do;
* `uplink_pollConnect`, `uplink_resumeWorker`   the parties that poll the link;
* `uplink_handed`, `uplink_publish`             publish calls;
* `uplink_act`, `uplink_after`                  actions and runs.
-/

namespace DeviceHub

/-! ## Connections -/

namespace Connection

variable (c : Connection)

theorem workerPolled_stopping (w : Worker) (p : Polled) :
    (c.workerPolled w p).1.stopping = c.stopping := by
  unfold workerPolled
  cases w.point <;> rcases p with e | (_ | _ | _) <;> rfl

end Connection

namespace Session

open Uplink (Step Steps)

variable {σ : Type} {direct : Prop}

/-! ## What publish calls do -/

/-- what a request for a command publishes, if it is in order -/
def commandPublication? (x : Surroundings σ) (s : Session σ) (r : Command.Request) :
    Option Publication :=
  match r.launch s.hub.limit (x.idOf s.commands) x.now with
  | .ok (_, c) => some (Command.publication c)
  | .error _ => none

/-- the request for a command that a request to the service makes -/
def servedSend? (x : Surroundings σ) (s : Session σ) (r : Service.Request) :
    Option Command.Request :=
  match Service.handle (x.view s.hub) r with
  | some (.send r) => some r
  | _ => none

/-- what a task publishes when it first runs -/
def publication? (x : Surroundings σ) (s : Session σ) : Job → Option Publication
  | .publish p => some p
  | .send r => s.commandPublication? x r
  | .serve r => (s.servedSend? x r).bind (s.commandPublication? x)
  | _ => none

def acceptance (n : Nat) : Except TransportError Unit → List Handover
  | .ok () => [.accepted n]
  | .error _ => []

/-- what the publish call of a task does first -/
def firstHandovers (s : Session σ) (n : Nat) (p : Publication) : List Handover :=
  .begun n p s.hub.connection.isConnected ::
    if s.hub.connection.isConnected then s.client.publish?.elim [] (acceptance n) else []

/-- what publish calls do when a task goes on that is at a stage -/
def resumeHandovers (x : Surroundings σ) (s : Session σ) (n : Nat) : Stage → List Handover
  | .fresh job => (s.publication? x job).elim [] (s.firstHandovers n)
  | _ => []

/-- what publish calls do when the client answers a task that is at a stage -/
def answerHandovers (n : Nat) (r : Except TransportError Unit) : Stage → List Handover
  | .handing .. => acceptance n r
  | _ => []

def handovers (x : Surroundings σ) (s : Session σ) : Action → List Handover
  | .resume (.task n) => (s.task? n).elim [] fun t => s.resumeHandovers x n t.stage
  | .answer n r => (s.task? n).elim [] fun t => answerHandovers n r t.stage
  | _ => []

def log (s : Session σ) : List (Move σ) → List Handover
  | [] => []
  | m :: ms => s.handovers m.1 m.2 ++ (s.act m.1 m.2).log ms

theorem steps_of_uplink_eq {u u' : Uplink} (h : u' = u) : Steps direct u u' := h ▸ .refl

theorem stand?_of_task {s : Session σ} {n : Nat} {t : Task} (ht : s.task? n = some t)
    (log : List Handover) : (s.uplink log).stand? n = some t.stage.stand := by
  show (s.task? n).map _ = _
  rw [ht]
  rfl

/-! ## The parties that poll the link -/

section
variable (x : Surroundings σ) (log : List Handover)

theorem uplink_pollConnect {n : Nat} (events : List Polled) {s : Session σ}
    (hn : (s.uplink log).stand? n = some .polling) :
    Steps direct (s.uplink log) ((pollConnect x n events s).uplink log) := by
  induction events generalizing s with
  | nil => exact .refl
  | cons p rest ih =>
    have hstep : Step direct (s.uplink log) ((s.uplink log).connectTook n p) :=
      .connectTook _ n p hn
    unfold Uplink.connectTook at hstep
    unfold pollConnect
    rw [show (s.uplink log).connection = s.hub.connection from rfl] at hstep
    generalize s.hub.connection.connectPolled p = r at hstep ⊢
    obtain ⟨c, es, point⟩ := r
    change Step direct _ (((s.uplink log).take p es c).reach n point) at hstep
    have hn₁ : ((s.uplink log).take p es c).stand? n = some .polling := hn
    rw [← uplink_polled x s log p rest es c] at hstep hn₁
    simp only
    generalize ({ s with link := rest }.note (.took p)).performAll x es c = s₁ at hstep hn₁ ⊢
    refine .head hstep ?_
    cases point with
    | polling =>
      rw [← uplink_note_none s₁ log (h := .polled) rfl] at hn₁ ⊢
      exact ih hn₁
    | connected =>
      refine steps_of_uplink_eq ?_
      show (s₁.spawnWorker.finish n _).uplink log = _
      rw [uplink_finish_none _ _ rfl, uplink_spawnWorker]
      rfl
    | failed e =>
      refine steps_of_uplink_eq ?_
      exact uplink_finish_none s₁ log rfl

/-- While the worker takes events its place in the session is that of the time before. -/
theorem uplink_pollWorker (events : List Polled) (w : Connection.Worker) {s : Session σ}
    (hs : s.hub.connection.stopping = false) :
    Steps direct ((s.uplink log).employ w .polling) ((pollWorker x w events s).uplink log) := by
  induction events generalizing s w with
  | nil => exact .refl
  | cons p rest ih =>
    have hstep (limit : Nat) : Step direct ((s.uplink log).employ w .polling)
        (((s.uplink log).employ w .polling).workerTook w p limit) := .workerTook _ w p limit rfl hs
    have hstopping := s.hub.connection.workerPolled_stopping w p
    unfold Uplink.workerTook at hstep
    unfold pollWorker
    rw [show ((s.uplink log).employ w .polling).connection = s.hub.connection from rfl] at hstep
    generalize s.hub.connection.workerPolled w p = r at hstep hstopping ⊢
    obtain ⟨c, es, w'⟩ := r
    change ∀ limit, Step direct _
      (((s.uplink log).take p es c).employ w' (stageAfter w' limit)) at hstep
    have hstopping : c.stopping = false := hstopping.trans hs
    rw [← uplink_polled x s log p rest es c] at hstep
    simp only
    have hs₁ : (({ s with link := rest }.note (.took p)).performAll x es c).hub.connection = c := rfl
    generalize ({ s with link := rest }.note (.took p)).performAll x es c = s₁ at hstep hs₁ ⊢
    have hstopping : s₁.hub.connection.stopping = false := hs₁ ▸ hstopping
    have hagain (w : Connection.Worker) : Steps direct ((s₁.uplink log).employ w .polling)
        ((pollWorker x w rest (s₁.note .polled)).uplink log) := by
      rw [← uplink_note_none s₁ log (h := .polled) rfl]
      exact ih w hstopping
    unfold stageAfter at hstep
    cases hpoint : w'.point with
    | listening =>
      simp only [hpoint] at hstep ⊢
      exact .head (hstep 0) (hagain w')
    | attempting =>
      simp only [hpoint] at hstep ⊢
      exact .head (hstep 0) (hagain w')
    | pausing delay =>
      simp only [hpoint] at hstep ⊢
      split
      · -- a pause of no length is over at once
        have hrest : Step direct ((s₁.uplink log).employ w' (.resting 0))
            ((s₁.uplink log).employ (Connection.workerRested w') .polling) :=
          .rest _ w' 0 rfl hstopping
        exact .head (hstep 0) (.head hrest (hagain _))
      · exact .single (hstep (s₁.clock + delay.ticks))

theorem uplink_startPoll (w : Connection.Worker) {s : Session σ}
    (hs : s.hub.connection.stopping = false) :
    Steps direct ((s.uplink log).employ w .polling) ((startPoll x w s).uplink log) := by
  rw [← uplink_note_none s log (h := .polled) rfl]
  exact uplink_pollWorker x log s.link w (s := s.note .polled) hs

theorem uplink_stopWorker (s : Session σ) :
    (s.stopWorker x).uplink log = (s.uplink log).dismiss := by
  unfold stopWorker
  rw [uplink_wakeTasks]
  exact congrArg (fun u : Uplink => { u with worker := none }) (uplink_performAll x s log _ _)

theorem uplink_resumeWorker (s : Session σ) :
    Steps direct (s.uplink log) ((s.resumeWorker x).uplink log) := by
  unfold resumeWorker
  split
  · exact .refl
  · rename_i w stage hw
    have hworker : (s.uplink log).worker = some (w, stage) := hw
    split
    · rename_i hs
      rw [uplink_stopWorker]
      exact .single (.dismiss _ hs)
    · rename_i hs
      have hs : s.hub.connection.stopping = false := Bool.eq_false_iff.mpr hs
      cases stage with
      | fresh => exact .head (.wake _ w hworker hs) (uplink_startPoll x log w hs)
      | polling =>
        have hsame : s.uplink log = (s.uplink log).employ w .polling :=
          congrArg (Uplink.mk _ · _ _ _ _) hworker
        rw [hsame]
        exact uplink_pollWorker x log s.link w hs
      | resting limit =>
        simp only
        split
        · exact .head (.rest _ w limit hworker hs) (uplink_startPoll x log _ hs)
        · exact .refl

/-! ## Publish calls -/

theorem uplink_finishSend (s : Session σ) (n : Nat) (t : Task)
    (r : Except Command.Error Message.Ack) :
    (s.finishSend n t r).uplink log = (s.uplink log).leave n := by
  unfold finishSend
  rw [uplink_finish_none _ _ (by split <;> rfl), uplink_note_none _ _ rfl]

theorem uplink_race (s : Session σ) (n : Nat) (t : Task) (send : Command.Send) (limit : Nat) :
    (s.race x n t send limit).uplink log = s.uplink log ∨
    (s.race x n t send limit).uplink log = (s.uplink log).leave n := by
  cases hr : send.race (t.cancelled = some true) (s.hub.pending.received? send.id)
    (limit ≤ s.clock) x.now with
  | some r =>
    rw [race_some x s n hr, uplink_finishSend, uplink_note_none _ _ rfl]
    exact Or.inr rfl
  | none =>
    rw [race_none x s n hr, uplink_note_none _ _ rfl]
    exact Or.inl rfl

theorem steps_race_uplink (s : Session σ) (n : Nat) (t : Task) (send : Command.Send) (limit : Nat) :
    Steps direct (s.uplink log) ((s.race x n t send limit).uplink log) := by
  rcases uplink_race x log s n t send limit with h | h
  · exact steps_of_uplink_eq h
  · rw [h]
    exact .single (.leave _ n)

theorem uplink_handed_error (s : Session σ) (n : Nat) (t : Task) (send : Option Command.Send)
    (e : PublishError) : (s.handed x n t send (.error e)).uplink log =
      ((s.uplink log).mark [.returned n (.error e)]).leave n := by
  cases send with
  | none => exact uplink_finish s log n _
  | some send =>
    show (Session.finishSend _ n t _).uplink log = _
    rw [uplink_finishSend, uplink_note]
    rfl

theorem uplink_handed_ok (s : Session σ) {n : Nat} {t₀ : Task} (ht : s.task? n = some t₀) (t : Task)
    (send : Option Command.Send) : Steps direct
      (((s.uplink log).mark [.returned n (.ok ())]).put n .racing)
      ((s.handed x n t send (.ok ())).uplink log) := by
  cases send with
  | none =>
    show Steps direct _ ((s.finish n (.published (.ok ()))).uplink log)
    rw [uplink_finish]
    refine .head (.leave _ n) (steps_of_uplink_eq ?_)
    rw [Uplink.put_leave]
    rfl
  | some send =>
    let t' : Task := { t with stage := .racing send (s.clock + send.limit.ticks) }
    have hput : (((s.note (.handed n (.ok ()))).put n t').alarm (s.clock + send.limit.ticks)
        (.task n)).uplink log = ((s.uplink log).mark [.returned n (.ok ())]).put n .racing := by
      show (((s.note _).put n t').uplink log) = _
      rw [uplink_put (s.note _) log ht, uplink_note]
      rfl
    rw [← hput]
    exact steps_race_uplink x log _ n _ send _

theorem uplink_handed {s : Session σ} {n : Nat} {t₀ : Task} (ht : s.task? n = some t₀) (t : Task)
    (send : Option Command.Send) (r : Except TransportError Unit) :
    Steps direct ((s.uplink log).put n .handing)
      ((s.handed x n t send (PublishError.ofClient r)).uplink (log ++ acceptance n r)) := by
  have hhanding : ((s.uplink log).put n .handing).stand? n = some .handing :=
    Uplink.put_stand?_self _ n _
  cases r with
  | error e =>
    show Steps direct _ ((s.handed x n t send (.error (.failed e.message))).uplink (log ++ []))
    rw [List.append_nil, uplink_handed_error, ← Uplink.put_leave _ n .handing]
    exact .single (.reject _ n _ hhanding (by simp))
  | ok u =>
    refine .head (.accept _ n hhanding) ?_
    have hok : Steps direct _ _ := uplink_handed_ok x (log ++ [.accepted n]) s ht t send
    rw [← Uplink.put_put _ n .handing] at hok
    exact hok

theorem uplink_publish {u : Uplink} {s : Session σ} {n : Nat} {t₀ : Task} {job : Job}
    (hu : (s.uplink log).put n .handing = u.put n .handing) (hn : u.stand? n = some (.fresh job))
    (ht : s.task? n = some t₀) (t : Task) (send : Option Command.Send) (p : Publication) :
    Steps direct u ((s.publish x n t send p).uplink (log ++ s.firstHandovers n p)) := by
  have hc : u.connection = s.hub.connection :=
    (congrArg Uplink.connection hu : s.hub.connection = u.connection).symm
  unfold publish Connection.publishGate firstHandovers
  by_cases hstands : s.hub.connection.isConnected = true
  · -- the client is asked, and answers at once or makes the task wait
    simp only [if_pos hstands]
    let begun : Handover := .begun n p s.hub.connection.isConnected
    let s₁ := s.note (.published p (send.map (·.id)))
    have hask : Step direct u (((u.begin n p).mark [.sent p]).put n .handing) :=
      .ask u n job p hn (hc ▸ hstands)
    have hasked : ((u.begin n p).mark [.sent p]).put n .handing =
        (s₁.uplink (log ++ [begun])).put n .handing := by
      show ((u.put n .handing).begin n p).mark [.sent p] = _
      rw [← hu, uplink_note]
      rfl
    rw [hasked] at hask
    refine .head hask ?_
    cases hclient : s₁.client.publish? with
    | some r =>
      have hhanded : Steps direct _ _ :=
        uplink_handed x (log ++ [begun]) (s := s₁) ht t send r
      rw [List.append_assoc] at hhanded
      simp only [show s.client.publish? = some r from hclient]
      exact hhanded
    | none =>
      simp only [show s.client.publish? = none from hclient]
      split
      · rw [uplink_handed_error, ← Uplink.put_leave _ n .handing]
        exact .single (.reject _ n _ (Uplink.put_stand?_self _ n _)
          (by unfold Connection.publishExpired; simp))
      · exact steps_of_uplink_eq (uplink_put s₁ (log ++ [begun]) ht _)
  · -- the connection does not stand
    simp only [if_neg hstands]
    have hleave : (s.uplink log).leave n = u.leave n := by
      rw [← Uplink.put_leave _ n .handing, hu, Uplink.put_leave]
    have hrefuse : Step direct u
        (((u.begin n p).mark [.returned n (.error .notConnected)]).leave n) :=
      .refuse u n job p hn (by rw [hc]; exact Bool.eq_false_iff.mpr hstands)
    refine .head hrefuse (steps_of_uplink_eq ?_)
    rw [uplink_handed_error]
    show (((s.uplink log).leave n).begin n p).mark [.returned n (.error .notConnected)] = _
    rw [hleave]
    rfl

end

/-! ## Tasks -/

theorem task?_wakeIf (s : Session σ) (b : Bool) (p : Party) (n : Nat) :
    (if b then s.wake p else s).task? n = s.task? n :=
  congrArg (fun d => d.task? n) (desk_wakeIf s b p)

theorem uplink_finishShutdown (x : Surroundings σ) (s : Session σ) (log : List Handover) (n : Nat) :
    (s.finishShutdown x n).uplink log = (s.uplink log).finish n := by
  unfold finishShutdown
  simp only
  rw [uplink_finish, uplink_performAll, uplink_note_none _ _ rfl]
  rfl

section
variable (x : Surroundings σ) (log : List Handover) {s : Session σ} {n : Nat} {t : Task}
  (ht : s.task? n = some t)
include ht

theorem uplink_send {job : Job} (hn : (s.uplink log).stand? n = some (.fresh job)) (t' : Task)
    (r : Command.Request) : Steps direct (s.uplink log) ((s.send x n t' r).uplink
      (log ++ (s.commandPublication? x r).elim [] (s.firstHandovers n))) := by
  unfold send commandPublication?
  cases r.launch s.hub.limit (x.idOf s.commands) x.now with
  | error e =>
    simp only [Option.elim_none, List.append_nil]
    rw [uplink_finishSend]
    exact .single (.leave _ n)
  | ok launched =>
    obtain ⟨send, c⟩ := launched
    let t₁ : Task := { t' with stage := .handing (some send) s.clock }
    have hu : ((s.register n t₁ send c).uplink log).put n .handing =
        (s.uplink log).put n .handing := by rw [uplink_register s log ht, Uplink.put_put]
    have ht₁ : (s.register n t₁ send c).task? n = some t₁ := by
      show (s.register n t₁ send c).desk.task? n = _
      rw [desk_register]
      exact Desk.register_task? ht
    exact uplink_publish x log hu hn ht₁ t₁ (some send) (Command.publication c)

theorem uplink_serve {job : Job} (hn : (s.uplink log).stand? n = some (.fresh job))
    (r : Service.Request) : Steps direct (s.uplink log) ((s.serve x n t r).uplink
      (log ++ (s.publication? x (.serve r)).elim [] (s.firstHandovers n))) := by
  have hpublication : s.publication? x (.serve r) =
      (s.servedSend? x r).bind (s.commandPublication? x) := rfl
  rw [hpublication]
  unfold serve servedSend?
  cases Service.handle (x.view s.hub) r with
  | none =>
    simp only [Option.bind_none, Option.elim_none, List.append_nil]
    rw [uplink_finish_none _ _ rfl]
    exact .single (.leave _ n)
  | some answer =>
    cases answer with
    | respond q =>
      simp only [Option.bind_none, Option.elim_none, List.append_nil]
      rw [uplink_finish_none _ _ rfl]
      exact .single (.leave _ n)
    | send r => exact uplink_send x log ht hn _ r

theorem uplink_connect (hstage : t.stage = .fresh .connect) :
    Steps direct (s.uplink log) ((s.connect x n t).uplink log) := by
  unfold connect
  cases hconnect : s.hub.connection.connect with
  | error e =>
    simp only
    rw [uplink_finish_none _ _ rfl]
    exact .single (.leave _ n)
  | ok r =>
    obtain ⟨c, es⟩ := r
    have hn : (s.uplink log).stand? n = some (.fresh .connect) := by
      rw [stand?_of_task ht, hstage]
      rfl
    have hstep : Step direct (s.uplink log) (((s.uplink log).perform es c).put n .polling) :=
      .connect _ n c es hn hconnect
    have hcalm : Calm x.idOf True s (s.performAll x es c) := calm_performAll x s es c
    have ht' : (s.performAll x es c).task? n = some t := (congrFun hcalm.tasks n).trans ht
    have hput : (((s.performAll x es c).put n { t with stage := .polling }).note
        .polled).uplink log = ((s.uplink log).perform es c).put n .polling := by
      rw [uplink_note_none _ _ rfl, uplink_put _ log ht', uplink_performAll]
      rfl
    rw [← hput] at hstep
    refine .head hstep (uplink_pollConnect x log _ ?_)
    rw [hput]
    exact Uplink.put_stand?_self _ n _

theorem uplink_shutdown (hstage : t.stage = .fresh .shutdown) :
    Steps direct (s.uplink log) ((s.shutdown x n t).uplink log) := by
  have hn : (s.uplink log).stand? n = some (.fresh .shutdown) := by
    rw [stand?_of_task ht, hstage]
    rfl
  have hrequest : Step direct (s.uplink log) ((s.uplink log).request n) := .request _ n hn
  unfold Uplink.request at hrequest
  rw [show (s.uplink log).connection = s.hub.connection from rfl] at hrequest
  unfold shutdown
  generalize s.hub.connection.beginShutdown = r at hrequest ⊢
  obtain ⟨c, waits⟩ := r
  refine .head hrequest ?_
  simp only
  have hwake := uplink_wakeIf { s with hub := { s.hub with connection := c } } log s.worker.isSome
    .worker
  have htask := task?_wakeIf { s with hub := { s.hub with connection := c } } s.worker.isSome .worker n
  generalize (if s.worker.isSome then _ else _ : Session σ) = s' at hwake htask ⊢
  have ht' : s'.task? n = some t := htask.trans ht
  have hjoining : ({ s.uplink log with connection := c } : Uplink).put n .joining =
      (s'.uplink log).put n .joining := congrArg (fun u => u.put n .joining) hwake.symm
  rw [hjoining]
  split
  · exact steps_of_uplink_eq (uplink_put s' log ht' _)
  · rw [uplink_finishShutdown, ← Uplink.put_finish _ n .joining]
    exact .single (.finish _ n (Uplink.put_stand?_self _ n _))

theorem uplink_begin (job : Job) (hstage : t.stage = .fresh job) :
    Steps direct (s.uplink log) ((s.begin x n t job).uplink
      (log ++ (s.publication? x job).elim [] (s.firstHandovers n))) := by
  have hn : (s.uplink log).stand? n = some (.fresh job) := by
    rw [stand?_of_task ht, hstage]
    rfl
  cases job with
  | connect =>
    rw [show (s.publication? x .connect).elim [] _ = [] from rfl, List.append_nil]
    exact uplink_connect x log ht hstage
  | shutdown =>
    rw [show (s.publication? x .shutdown).elim [] _ = [] from rfl, List.append_nil]
    exact uplink_shutdown x log ht hstage
  | send r => exact uplink_send x log ht hn t r
  | publish p => exact uplink_publish x log rfl hn ht t none p
  | serve r => exact uplink_serve x log ht hn r

theorem uplink_resumeTask : Steps direct (s.uplink log)
    ((s.resumeTask x n t).uplink (log ++ s.resumeHandovers x n t.stage)) := by
  unfold resumeTask resumeHandovers
  cases hstage : t.stage with
  | fresh job => exact uplink_begin x log ht job hstage
  | polling =>
    simp only [List.append_nil]
    refine uplink_pollConnect x log _ ?_
    rw [stand?_of_task ht, hstage]
    rfl
  | joining =>
    simp only [List.append_nil]
    split
    · rw [uplink_finishShutdown]
      refine .single (.finish _ n ?_)
      rw [stand?_of_task ht, hstage]
      rfl
    · exact .refl
  | handing send limit =>
    have hhanding : (s.uplink log).stand? n = some .handing := by
      rw [stand?_of_task ht, hstage]
      rfl
    simp only [List.append_nil]
    split
    · rw [uplink_handed_error]
      exact .single (.reject _ n _ hhanding (by unfold Connection.publishExpired; simp))
    · exact .refl
  | racing send limit =>
    simp only [List.append_nil]
    exact steps_race_uplink x log s n t send limit

end

/-! ## Actions -/

section
variable (x : Surroundings σ) (log : List Handover) (s : Session σ)

theorem uplink_answer (n : Nat) (r : Except TransportError Unit) :
    Steps direct (s.uplink log) ((s.answer x n r).uplink (log ++ s.handovers x (.answer n r))) := by
  show Steps direct _ ((s.answer x n r).uplink
    (log ++ (s.task? n).elim [] fun t => answerHandovers n r t.stage))
  unfold answer
  cases ht : s.task? n with
  | none =>
    simp only [Option.elim_none, List.append_nil]
    exact .refl
  | some t =>
    simp only [Option.elim_some]
    unfold answerHandovers
    cases hstage : t.stage with
    | handing send limit =>
      have hhanding : (s.uplink log).stand? n = some .handing := by
        rw [stand?_of_task ht, hstage]
        rfl
      rw [← Uplink.put_eq_self hhanding]
      exact uplink_handed x log ht t send r
    | fresh | polling | joining | racing =>
      simp only [List.append_nil]
      exact .refl

theorem uplink_resume (p : Party) :
    Steps direct (s.uplink log) ((s.resume x p).uplink (log ++ s.handovers x (.resume p))) := by
  cases p with
  | worker =>
    rw [show s.handovers x (.resume .worker) = [] from rfl, List.append_nil]
    exact uplink_resumeWorker x log { s with ready := s.ready.filter (· ≠ .worker) }
  | task n =>
    show Steps direct _ ((s.resume x (.task n)).uplink
      (log ++ (s.task? n).elim [] fun t => s.resumeHandovers x n t.stage))
    cases ht : s.task? n with
    | none =>
      rw [resume_task_none x s ht, Option.elim_none, List.append_nil]
      exact .refl
    | some t =>
      rw [resume_task_some x s ht, Option.elim_some]
      exact uplink_resumeTask x log (s := { s with ready := s.ready.filter (· ≠ .task n) }) ht

theorem uplink_cancel (n : Nat) : (s.cancel n).uplink log = s.uplink log := by
  unfold cancel
  split
  · rfl
  · rename_i t ht
    have hput (t' : Task) (hstage : t'.stage = t.stage) :
        (s.put n t').uplink log = s.uplink log := by
      rw [uplink_put s log ht, hstage]
      exact Uplink.put_eq_self (stand?_of_task ht log)
    simp only
    split
    · split
      · rw [uplink_wake]
        exact hput _ rfl
      · exact hput _ rfl
    · exact hput _ rfl

theorem uplink_drop (n : Nat) : Steps direct (s.uplink log) ((s.drop n).uplink log) := by
  unfold drop
  split
  · rw [uplink_note_none _ _ rfl, uplink_remove]
    exact .single (.leave _ n)
  · exact .refl

theorem uplink_feed (events : List Polled) : (s.feed events).uplink log = s.uplink log := by
  unfold feed
  simp only
  rw [uplink_wakeTasks]
  split
  · exact uplink_wake _ _ _
  · rfl

theorem uplink_reach (time : Nat) : (s.reach time).uplink log = s.uplink log := by
  unfold reach
  simp only
  generalize s.timers.filter (fun e => e.1 ≤ time) = due
  have hfold (s : Session σ) :
      (due.foldl (fun s e => s.wake e.2) s).uplink log = s.uplink log := by
    induction due generalizing s with
    | nil => rfl
    | cons e due ih => exact (ih (s.wake e.2)).trans (uplink_wake s log _)
  exact hfold _

theorem uplink_acknowledge (a : Message.Ack) : (s.acknowledge a).uplink log = s.uplink log := by
  unfold acknowledge wakeSends
  rw [uplink_wakeTasks, uplink_note_none _ _ rfl]
  rfl

/-- Every action changes the uplink in steps; a message that does not come from the link is an
action of its own. -/
theorem uplink_act (a : Action) (hdirect : ∀ topic payload, a = .message topic payload → direct) :
    Steps direct (s.uplink log) ((s.act x a).uplink (log ++ s.handovers x a)) := by
  cases a with
  | resume p => exact uplink_resume x log s p
  | answer n r => exact uplink_answer x log s n r
  | start job token =>
    rw [show s.handovers x (.start job token) = [] from rfl, List.append_nil]
    show Steps direct _ ((s.start job token).uplink log)
    rw [uplink_start]
    exact .single (.start _ job)
  | cancel n =>
    rw [show s.handovers x (.cancel n) = [] from rfl, List.append_nil]
    exact steps_of_uplink_eq (uplink_cancel log s n)
  | drop n =>
    rw [show s.handovers x (.drop n) = [] from rfl, List.append_nil]
    exact uplink_drop log s n
  | feed events =>
    rw [show s.handovers x (.feed events) = [] from rfl, List.append_nil]
    exact steps_of_uplink_eq (uplink_feed log s events)
  | behave c =>
    rw [show s.handovers x (.behave c) = [] from rfl, List.append_nil]
    exact .refl
  | acknowledge b =>
    rw [show s.handovers x (.acknowledge b) = [] from rfl, List.append_nil]
    exact steps_of_uplink_eq (uplink_acknowledge log s b)
  | message topic payload =>
    rw [show s.handovers x (.message topic payload) = [] from rfl, List.append_nil]
    show Steps direct _ ((s.receive x topic payload).uplink log)
    rw [uplink_receive]
    exact .single (.message _ topic payload (hdirect topic payload rfl))
  | reach time =>
    rw [show s.handovers x (.reach time) = [] from rfl, List.append_nil]
    exact steps_of_uplink_eq (uplink_reach log s time)

end

theorem uplink_after (s : Session σ) (ms : List (Move σ)) (log : List Handover)
    (hdirect : ∀ m ∈ ms, ∀ topic payload, m.2 = .message topic payload → direct) :
    Steps direct (s.uplink log) ((s.after ms).uplink (log ++ s.log ms)) := by
  induction ms generalizing s log with
  | nil =>
    rw [show s.log [] = [] from rfl, List.append_nil]
    exact .refl
  | cons m ms ih =>
    have hact : Steps direct _ _ := uplink_act m.1 log s m.2 (hdirect m List.mem_cons_self)
    have hafter := ih (s.act m.1 m.2) (log ++ s.handovers m.1 m.2)
      (fun m' h => hdirect m' (List.mem_cons_of_mem _ h))
    rw [List.append_assoc] at hafter
    exact hact.trans hafter

end Session

end DeviceHub
