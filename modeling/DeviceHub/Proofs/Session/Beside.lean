import DeviceHub.Proofs.Session.Lease

/-!
# What a task does beside the others

* `Happening.owner?`   the task that something happens to;
* `Beside`             from one session to another nothing happens to a task, and it does not change;
* `Beside.note` ... `Beside.resumeTask`   operations of a session, and what other parties do;
* `Action.addresses`   the actions that concern a task;
* `beside_act`         every other action leaves the task alone;
* `limit_act`          no action changes the time limit of commands that give none.
-/

namespace DeviceHub.Session

variable {σ : Type}

/-- the task that something happens to -/
def Happening.owner? : Happening → Option Nat
  | .registered n .. | .handed n _ | .looked n .. | .resolved n _ | .dropped n | .ended n _ => some n
  | _ => none

/-- From one session to another a task stays as it is, and nothing happens to it. -/
structure Beside (n : Nat) (s s' : Session σ) : Prop where
  task : s'.task? n = s.task? n
  limit : s'.hub.limit = s.hub.limit
  history : ∃ new, s'.history = new ++ s.history ∧ ∀ e ∈ new, e.2.owner? ≠ some n

namespace Beside

variable {n m : Nat} {s s' s'' : Session σ}

theorem refl (n : Nat) (s : Session σ) : Beside n s s :=
  ⟨rfl, rfl, [], rfl, fun _ he => by cases he⟩

theorem trans (h : Beside n s s') (h' : Beside n s' s'') : Beside n s s'' where
  task := h'.task.trans h.task
  limit := h'.limit.trans h.limit
  history := by
    obtain ⟨new, hnew, hothers⟩ := h.history
    obtain ⟨newer, hnewer, hothers'⟩ := h'.history
    refine ⟨newer ++ new, by rw [hnewer, hnew, List.append_assoc], fun e he => ?_⟩
    exact (List.mem_append.mp he).elim (hothers' e) (hothers e)

theorem of_eq (ht : s'.task? n = s.task? n) (hl : s'.hub.limit = s.hub.limit)
    (hh : s'.history = s.history) : Beside n s s' :=
  ⟨ht, hl, [], hh, fun _ he => by cases he⟩

theorem mem_iff (hb : Beside n s s') {time : Nat} {h : Happening}
    (hown : h.owner? = some n) : (time, h) ∈ s'.history ↔ (time, h) ∈ s.history := by
  obtain ⟨new, hnew, hothers⟩ := hb.history
  rw [hnew, List.mem_append]
  exact ⟨fun hmem => hmem.resolve_left fun hmem => hothers _ hmem hown, Or.inr⟩

theorem registered_iff (hb : Beside n s s') (send : Command.Send) :
    (n, send) ∈ registrations s'.history ↔ (n, send) ∈ registrations s.history := by
  rw [mem_registrations, mem_registrations]
  exact exists_congr fun time => exists_congr fun c => hb.mem_iff rfl

section
variable (n) (s)

theorem note {h : Happening} (hh : h.owner? ≠ some n) : Beside n s (s.note h) :=
  ⟨rfl, rfl, [(s.clock, h)], rfl, fun e he => by cases List.mem_singleton.mp he; exact hh⟩

theorem wake (p : Party) : Beside n s (s.wake p) := by
  unfold Session.wake
  split
  · exact refl n s
  · exact of_eq rfl rfl rfl

theorem wakeIf (b : Bool) (p : Party) : Beside n s (if b then s.wake p else s) := by
  split
  · exact wake n s p
  · exact refl n s

theorem wakeTasks (p : Stage → Bool) : Beside n s (s.wakeTasks p) := by
  unfold Session.wakeTasks
  generalize s.tasks.filter (fun e => p e.2.stage) = ts
  induction ts generalizing s with
  | nil => exact refl n s
  | cons e ts ih => exact (wake n s (.task e.1)).trans (ih (s.wake (.task e.1)))

theorem spawnWorker : Beside n s s.spawnWorker := by
  have hspawned : Beside n s { s with worker := some (s.hub.connection.worker, .fresh) } :=
    of_eq rfl rfl rfl
  exact hspawned.trans (wake n _ .worker)

theorem put (hm : m ≠ n) (t : Task) : Beside n s (s.put m t) :=
  of_eq ((Passes.task?_put s m n t).trans (if_neg hm.symm)) rfl rfl

theorem remove (hm : m ≠ n) : Beside n s (s.remove m) :=
  of_eq ((Passes.task?_remove s m n).trans (if_neg hm.symm)) rfl rfl

theorem finish (hm : m ≠ n) (r : Result) : Beside n s (s.finish m r) :=
  (remove n s hm).trans (note n _ (by simp [Happening.owner?, hm]))

/-! ## Effects of the connection -/

variable (x : Surroundings σ)

theorem receive (topic : String) (payload : List UInt8) : Beside n s (s.receive x topic payload) := by
  have hlimit := Hub.onMessage_limit x.sink x.now s.hub topic payload
  unfold Session.receive
  generalize s.hub.onMessage x.sink x.now topic payload = r at hlimit ⊢
  obtain ⟨h, outcome⟩ := r
  have hhub : Beside n s { s with hub := h } := of_eq rfl hlimit rfl
  have hnoted : Beside n s ({ s with hub := h }.note (.received topic payload outcome)) :=
    hhub.trans (note n { s with hub := h } (by simp [Happening.owner?]))
  simp only
  generalize { s with hub := h }.note (.received topic payload outcome) = s' at hnoted ⊢
  split
  · exact hnoted.trans ((note n s' (by simp [Happening.owner?])).trans (wakeTasks n _ _))
  · exact hnoted

theorem foldl {α : Type} {f : Session σ → α → Session σ} (hf : ∀ s a, Beside n s (f s a))
    (as : List α) : Beside n s (as.foldl f s) := by
  induction as generalizing s with
  | nil => exact refl n s
  | cons a as ih => exact (hf s a).trans (ih (f s a))

theorem perform (e : Connection.Effect) : Beside n s (s.perform x e) := by
  cases e with
  | deliver topic payload => exact receive n s x topic payload
  | subscribe => exact foldl n s (fun s e => note n s (by simp [Happening.owner?])) _
  | become new =>
    let c := s.hub.connection
    have hstatus : Beside n s { s with hub := { s.hub with connection := { c with status := new } } } :=
      of_eq rfl rfl rfl
    exact hstatus.trans (note n _ (by simp [Happening.owner?]))

theorem performAll (es : List Connection.Effect) (c : Connection) :
    Beside n s (s.performAll x es c) :=
  (foldl n s (fun s e => perform n s x e) es).trans (of_eq rfl rfl rfl)

theorem polled (p : Polled) (rest : List Polled) (es : List Connection.Effect) (c : Connection) :
    Beside n s (({ s with link := rest }.note (.took p)).performAll x es c) := by
  have hlink : Beside n s { s with link := rest } := of_eq rfl rfl rfl
  exact (hlink.trans (note n _ (by simp [Happening.owner?]))).trans (performAll n _ x es c)

/-! ## The parties that poll the link -/

theorem pollConnect (hm : m ≠ n) (events : List Polled) :
    Beside n s (Session.pollConnect x m events s) := by
  induction events generalizing s with
  | nil => exact of_eq rfl rfl rfl
  | cons p rest ih =>
    unfold Session.pollConnect
    rcases s.hub.connection.connectPolled p with ⟨c, es, point⟩
    have hpolled := polled n s x p rest es c
    cases point with
    | polling => exact hpolled.trans ((note n _ (by simp [Happening.owner?])).trans (ih _))
    | connected => exact hpolled.trans ((spawnWorker n _).trans (finish n _ hm _))
    | failed e => exact hpolled.trans (finish n _ hm _)

theorem pollWorker (w : Connection.Worker) (events : List Polled) :
    Beside n s (Session.pollWorker x w events s) := by
  induction events generalizing s w with
  | nil => exact of_eq rfl rfl rfl
  | cons p rest ih =>
    unfold Session.pollWorker
    rcases s.hub.connection.workerPolled w p with ⟨c, es, w'⟩
    have hpolled := polled n s x p rest es c
    have hagain (w : Connection.Worker) :=
      hpolled.trans ((note n _ (h := .polled) (by simp [Happening.owner?])).trans (ih _ w))
    simp only
    split
    · split
      · exact hagain _
      · exact hpolled.trans (of_eq rfl rfl rfl)
    · exact hagain _

theorem startPoll (w : Connection.Worker) : Beside n s (Session.startPoll x w s) :=
  (note n s (by simp [Happening.owner?])).trans (pollWorker n _ x w s.link)

theorem stopWorker : Beside n s (s.stopWorker x) := by
  unfold Session.stopWorker
  rcases s.hub.connection.workerStopped with ⟨c, es⟩
  have hstopped : Beside n s { (s.performAll x es c).forget .worker with worker := none } :=
    (performAll n s x es c).trans (of_eq rfl rfl rfl)
  exact hstopped.trans (wakeTasks n _ _)

theorem resumeWorker : Beside n s (s.resumeWorker x) := by
  unfold Session.resumeWorker
  split
  · exact refl n s
  · split
    · exact stopWorker n s x
    · split
      · exact startPoll n s x _
      · exact pollWorker n s x _ _
      · split
        · exact startPoll n s x _
        · exact refl n s

/-! ## Other tasks -/

section
variable (hm : m ≠ n)
include hm

theorem finishSend (t : Task) (r : Except Command.Error Message.Ack) :
    Beside n s (s.finishSend m t r) :=
  (note n s (by simp [Happening.owner?, hm])).trans (finish n _ hm _)

theorem race (t : Task) (send : Command.Send) (limit : Nat) :
    Beside n s (s.race x m t send limit) := by
  have hlooked : Beside n s (s.note (.looked m (t.cancelled = some true) (limit ≤ s.clock) x.now)) :=
    note n s (by simp [Happening.owner?, hm])
  cases hr : send.race (t.cancelled = some true) (s.hub.pending.received? send.id)
    (limit ≤ s.clock) x.now with
  | some r =>
    rw [race_some x s m hr]
    exact hlooked.trans (finishSend n _ hm t r)
  | none =>
    rw [race_none x s m hr]
    exact hlooked

theorem handed (t : Task) (send : Option Command.Send) (r : Except PublishError Unit) :
    Beside n s (s.handed x m t send r) := by
  cases send with
  | none => exact finish n s hm _
  | some send =>
    have hhanded : Beside n s (s.note (.handed m r)) := note n s (by simp [Happening.owner?, hm])
    cases r with
    | error e => exact hhanded.trans (finishSend n _ hm t _)
    | ok u =>
      let limit := s.clock + send.limit.ticks
      have hput := hhanded.trans (put n _ hm { t with stage := .racing send limit })
      have halarm : Beside n s (((s.note (.handed m (.ok u))).put m
          { t with stage := .racing send limit }).alarm limit (.task m)) :=
        hput.trans (of_eq rfl rfl rfl)
      exact halarm.trans (race n _ x hm t send limit)

theorem publish (t : Task) (send : Option Command.Send) (p : Publication) :
    Beside n s (s.publish x m t send p) := by
  unfold Session.publish
  split
  · exact handed n s x hm t send _
  · refine (note n s (h := .published p (send.map (·.id))) (by simp [Happening.owner?])).trans ?_
    simp only
    split
    · exact handed n _ x hm t send _
    · split
      · exact handed n _ x hm t send _
      · exact (put n _ hm _).trans (of_eq rfl rfl rfl)

theorem send (t : Task) (r : Command.Request) : Beside n s (s.send x m t r) := by
  unfold Session.send
  split
  · exact finishSend n s hm t _
  · rename_i send c _
    have hcounted : Beside n s { s with
        hub := { s.hub with pending := s.hub.pending.register send.id }
        commands := s.commands + 1 } := of_eq rfl rfl rfl
    have hregistered := hcounted.trans
      (note n _ (h := .registered m send c) (by simp [Happening.owner?, hm]))
    exact (hregistered.trans (put n _ hm _)).trans (publish n _ x hm _ _ _)

theorem serve (t : Task) (r : Service.Request) : Beside n s (s.serve x m t r) := by
  unfold Session.serve
  split
  · exact finish n s hm _
  · exact finish n s hm _
  · exact send n s x hm _ _

theorem connect (t : Task) : Beside n s (s.connect x m t) := by
  unfold Session.connect
  split
  · exact finish n s hm _
  · rename_i c es _
    have hpolls := ((performAll n s x es c).trans (put n _ hm { t with stage := .polling })).trans
      (note n _ (h := .polled) (by simp [Happening.owner?]))
    exact hpolls.trans (pollConnect n _ x hm _)

theorem finishShutdown : Beside n s (s.finishShutdown x m) := by
  unfold Session.finishShutdown
  simp only
  rcases (s.note .disconnected).hub.connection.finishShutdown with ⟨c, es⟩
  have hnoted : Beside n s (s.note .disconnected) := note n s (by simp [Happening.owner?])
  exact (hnoted.trans (performAll n _ x es c)).trans (finish n _ hm _)

theorem shutdown (t : Task) : Beside n s (s.shutdown x m t) := by
  unfold Session.shutdown
  rcases s.hub.connection.beginShutdown with ⟨c, waits⟩
  have hstopping : Beside n s { s with hub := { s.hub with connection := c } } := of_eq rfl rfl rfl
  have hwoken := hstopping.trans (wakeIf n _ s.worker.isSome .worker)
  simp only
  generalize (if s.worker.isSome then _ else _ : Session σ) = s' at hwoken ⊢
  split
  · exact hwoken.trans (put n _ hm _)
  · exact hwoken.trans (finishShutdown n _ x hm)

theorem begin (t : Task) (job : Job) : Beside n s (s.begin x m t job) := by
  cases job with
  | connect => exact connect n s x hm t
  | shutdown => exact shutdown n s x hm t
  | send r => exact send n s x hm t r
  | publish p => exact publish n s x hm t none p
  | serve r => exact serve n s x hm t r

theorem resumeTask (t : Task) : Beside n s (s.resumeTask x m t) := by
  unfold Session.resumeTask
  split
  · exact begin n s x hm t _
  · exact pollConnect n s x hm _
  · split
    · exact finishShutdown n s x hm
    · exact refl n s
  · split
    · exact handed n s x hm t _ _
    · exact refl n s
  · exact race n s x hm t _ _

end

end

end Beside

/-! ## Actions -/

/-- whether an action concerns a task -/
def Action.addresses (n : Nat) : Action → Bool
  | .resume (.task m) | .cancel m | .drop m | .answer m _ => m = n
  | _ => false

theorem ne_of_aside {s : Session σ} {n m : Nat} {t : Task} (ht : s.task? m = some t)
    (h : m ≠ n ∨ s.task? n = none) : m ≠ n := by
  rintro rfl
  exact h.elim (fun hm => hm rfl) fun hnone => by cases ht.symm.trans hnone

section
variable (x : Surroundings σ) (s : Session σ) {n : Nat}

theorem beside_resume {p : Party} (hp : p ≠ .task n ∨ s.task? n = none) :
    Beside n s (s.resume x p) := by
  have hready : Beside n s { s with ready := s.ready.filter (· ≠ p) } := .of_eq rfl rfl rfl
  cases p with
  | worker => exact hready.trans (.resumeWorker n _ x)
  | task m =>
    cases ht : s.task? m with
    | none =>
      rw [resume_task_none x s ht]
      exact hready
    | some t =>
      rw [resume_task_some x s ht]
      refine hready.trans (.resumeTask n _ x (ne_of_aside ht ?_) t)
      exact hp.imp_left fun hp hm => hp (by rw [hm])

theorem beside_cancel {m : Nat} (hm : m ≠ n ∨ s.task? n = none) : Beside n s (s.cancel m) := by
  unfold cancel
  split
  · exact .refl n s
  · rename_i t ht
    have hmn := ne_of_aside ht hm
    have hput := Beside.put n s hmn { t with cancelled := t.cancelled.map fun _ => true }
    simp only
    split
    · split
      · exact hput.trans (.wake n _ _)
      · exact hput
    · exact hput

theorem beside_drop {m : Nat} (hm : m ≠ n ∨ s.task? n = none) : Beside n s (s.drop m) := by
  unfold drop
  split
  · rename_i t ht
    have hmn := ne_of_aside ht hm
    exact (Beside.remove n s hmn).trans (.note n _ (by simp [Happening.owner?, hmn]))
  · exact .refl n s

theorem beside_answer {m : Nat} (hm : m ≠ n ∨ s.task? n = none) (r : Except TransportError Unit) :
    Beside n s (s.answer x m r) := by
  unfold answer
  split
  · exact .refl n s
  · rename_i t ht
    have hmn := ne_of_aside ht hm
    split
    · exact .handed n s x hmn t _ _
    · exact .refl n s

theorem beside_start (hn : n ≠ s.started + 1) (job : Job) (token : Option Bool) :
    Beside n s (s.start job token) := by
  let task : Task := { stage := .fresh job, cancelled := token }
  have hadded : (s.tasks ++ [(s.started + 1, task)]).lookup n = s.task? n := by
    rw [lookup_append_one, if_neg hn, Option.or_none]
    rfl
  have hstarted : Beside n s { s with
      started := s.started + 1, tasks := s.tasks ++ [(s.started + 1, task)] } :=
    .of_eq hadded rfl rfl
  exact hstarted.trans (.wake n _ _)

theorem beside_feed (events : List Polled) : Beside n s (s.feed events) := by
  have hlink : Beside n s { s with link := s.link ++ events } := .of_eq rfl rfl rfl
  unfold feed
  refine (hlink.trans ?_).trans (.wakeTasks n _ _)
  split
  · exact .wake n _ _
  · exact .refl n _

theorem beside_acknowledge (a : Message.Ack) : Beside n s (s.acknowledge a) := by
  have hhub : Beside n s { s with hub := s.hub.acknowledge a } := .of_eq rfl rfl rfl
  have hnoted := hhub.trans (.note n _ (h := .acknowledged a) (by simp [Happening.owner?]))
  unfold acknowledge wakeSends
  exact hnoted.trans (.wakeTasks n _ _)

theorem beside_reach (time : Nat) : Beside n s (s.reach time) := by
  have hclock : Beside n s { s with
      clock := max s.clock time, timers := s.timers.filter fun e => ¬ e.1 ≤ time } :=
    .of_eq rfl rfl rfl
  unfold reach
  exact hclock.trans (.foldl n _ (f := fun s (e : Nat × Party) => s.wake e.2)
    (fun s e => .wake n s e.2) _)

/-- An action that concerns another task, or none, leaves the task alone. -/
theorem beside_act {a : Action} (hn : ∀ job token, a = .start job token → n ≠ s.started + 1)
    (ha : a.addresses n = false ∨ s.task? n = none) : Beside n s (s.act x a) := by
  have haside {m : Nat} (h : decide (m = n) = false ∨ s.task? n = none) :
      m ≠ n ∨ s.task? n = none := h.imp_left of_decide_eq_false
  cases a with
  | resume p =>
    refine beside_resume x s ?_
    cases p with
    | worker => exact Or.inl (by simp)
    | task m => exact (haside ha).imp_left fun hm => by simp [hm]
  | start job token => exact beside_start s (hn job token rfl) job token
  | cancel m => exact beside_cancel s (haside ha)
  | drop m => exact beside_drop s (haside ha)
  | feed events => exact beside_feed s events
  | behave c => exact .of_eq rfl rfl rfl
  | answer m r => exact beside_answer x s (haside ha) r
  | acknowledge a => exact beside_acknowledge s a
  | message topic payload => exact .receive n s x topic payload
  | reach time => exact beside_reach s time

theorem limit_act (a : Action) : (s.act x a).hub.limit = s.hub.limit := by
  -- some task is neither concerned nor started
  have hother : ∃ n, n ≠ s.started + 1 ∧ a.addresses n = false := by
    have hfree (m : Nat) : s.started + m + 2 ≠ s.started + 1 ∧
        decide (m = s.started + m + 2) = false := ⟨by omega, decide_eq_false (by omega)⟩
    cases a with
    | resume p =>
      cases p with
      | worker => exact ⟨_, (hfree 0).1, rfl⟩
      | task m => exact ⟨_, hfree m⟩
    | cancel m | drop m | answer m => exact ⟨_, hfree m⟩
    | _ => exact ⟨_, (hfree 0).1, rfl⟩
  obtain ⟨n, hn, ha⟩ := hother
  exact (beside_act x s (fun _ _ _ => hn) (Or.inl ha)).limit

end

end DeviceHub.Session
