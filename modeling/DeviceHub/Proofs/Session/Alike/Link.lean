import DeviceHub.Proofs.Session.Alike.Desk

/-!
# Sessions that one send cannot tell apart: the connection

* `Shell`            what of a session is neither on its desk nor in its queues;
* `Alike`            two sessions with the same shell, whose desks are alike;
* `Alike.both`       changes that the send cannot see;
* `Alike.receive` ... `Alike.resumeWorker`   the connection.
-/

namespace DeviceHub.Session

variable {σ : Type} {n m : Nat}

/-! ## Two sessions -/

/-- what of a session is neither on its desk nor in its queues -/
structure Shell where
  connection : Connection
  limit : Duration
  client : Client
  link : List Polled
  clock : Nat
  worker : Option (Connection.Worker × WorkerStage)

def shell (s : Session σ) : Shell :=
  ⟨s.hub.connection, s.hub.limit, s.client, s.link, s.clock, s.worker⟩

theorem shell_wake (s : Session σ) (p : Party) : (s.wake p).shell = s.shell := by
  unfold wake
  split <;> rfl

theorem shell_wakeTasks (s : Session σ) (p : Stage → Bool) : (s.wakeTasks p).shell = s.shell := by
  unfold wakeTasks
  generalize s.tasks.filter (fun e => p e.2.stage) = ts
  induction ts generalizing s with
  | nil => rfl
  | cons e ts ih => exact (ih (s.wake (.task e.1))).trans (shell_wake s _)

theorem shell_receive (x : Surroundings σ) (s : Session σ) (topic : String)
    (payload : List UInt8) : (s.receive x topic payload).shell = s.shell := by
  have hconnection := Hub.onMessage_connection x.sink x.now s.hub topic payload
  have hlimit := Hub.onMessage_limit x.sink x.now s.hub topic payload
  unfold receive
  generalize s.hub.onMessage x.sink x.now topic payload = r at hconnection hlimit ⊢
  have hshell : ({ s with hub := r.1 } : Session σ).shell = s.shell := by
    show Shell.mk _ _ _ _ _ _ = Shell.mk _ _ _ _ _ _
    rw [hconnection, hlimit]
  obtain ⟨h, (_ | a) | why⟩ := r
  · exact hshell
  · exact (shell_wakeTasks _ _).trans hshell
  · exact hshell

theorem shell_acknowledge (s : Session σ) (a : Message.Ack) :
    (s.acknowledge a).shell = s.shell := shell_wakeTasks _ _

theorem shell_reach (s : Session σ) (time : Nat) :
    (s.reach time).shell = { s.shell with clock := max s.shell.clock time } := by
  unfold reach
  simp only
  generalize s.timers.filter (fun e => e.1 ≤ time) = due
  have hfold (s : Session σ) : (due.foldl (fun s e => s.wake e.2) s).shell = s.shell := by
    induction due generalizing s with
    | nil => rfl
    | cons e due ih => exact (ih (s.wake e.2)).trans (shell_wake s _)
  exact hfold _

/-- One send cannot tell two sessions apart. -/
structure Alike (n : Nat) (s s' : Session σ) : Prop where
  shell : s'.shell = s.shell
  desk : Desk.Alike n s.desk s'.desk

namespace Alike

variable {s s' s'' : Session σ}

theorem refl (n : Nat) (s : Session σ) : Alike n s s := ⟨rfl, .refl n _⟩

theorem symm (h : Alike n s s') : Alike n s' s := ⟨h.shell.symm, h.desk.symm⟩

theorem trans (h : Alike n s s') (h' : Alike n s' s'') : Alike n s s'' :=
  ⟨h'.shell.trans h.shell, h.desk.trans h'.desk⟩

theorem of_eq (hshell : s'.shell = s.shell) (hdesk : s'.desk = s.desk) : Alike n s s' :=
  ⟨hshell, hdesk ▸ .refl n _⟩

theorem connection (h : Alike n s s') : s'.hub.connection = s.hub.connection :=
  congrArg Shell.connection h.shell

theorem limit (h : Alike n s s') : s'.hub.limit = s.hub.limit := congrArg Shell.limit h.shell

theorem client (h : Alike n s s') : s'.client = s.client := congrArg Shell.client h.shell

theorem link (h : Alike n s s') : s'.link = s.link := congrArg Shell.link h.shell

theorem clock (h : Alike n s s') : s'.clock = s.clock := congrArg Shell.clock h.shell

theorem worker (h : Alike n s s') : s'.worker = s.worker := congrArg Shell.worker h.shell

/-! ## Changes that are made in both -/

theorem note (h : Alike n s s') (e : Happening) : Alike n (s.note e) (s'.note e) := by
  refine ⟨h.shell, ?_⟩
  rw [desk_note, desk_note, h.clock]
  exact h.desk.note s.clock e

theorem setLink (h : Alike n s s') (events : List Polled) :
    Alike n { s with link := events } { s' with link := events } :=
  ⟨congrArg (fun c => { c with link := events }) h.shell, h.desk⟩

theorem setWorker (h : Alike n s s') (w : Option (Connection.Worker × WorkerStage)) :
    Alike n { s with worker := w } { s' with worker := w } :=
  ⟨congrArg (fun c => { c with worker := w }) h.shell, h.desk⟩

theorem setConnection (h : Alike n s s') (c : Connection) :
    Alike n { s with hub := { s.hub with connection := c } }
      { s' with hub := { s'.hub with connection := c } } :=
  ⟨congrArg (fun k => { k with connection := c }) h.shell, h.desk⟩

theorem put (h : Alike n s s') {t t' : Task} (ht : s.task? m = some t) (ht' : s'.task? m = some t)
    (hs : t'.send? = t.send?) : Alike n (s.put m t') (s'.put m t') := by
  refine ⟨h.shell, ?_⟩
  rw [desk_put, desk_put]
  exact h.desk.put ht ht' hs

theorem finish (h : Alike n s s') (ht : s'.task? m = s.task? m) (hclear : Desk.Clear n m s.desk)
    (r r' : Result) : Alike n (s.finish m r) (s'.finish m r') := by
  refine ⟨h.shell, ?_⟩
  rw [desk_finish, desk_finish]
  have hended (d : Desk) (time : Nat) (r : Result) : Desk.Alike n d (d.note time (.ended m r)) :=
    .aside d time rfl
  exact (hended _ _ r).symm.trans ((h.desk.remove ht hclear).trans (hended _ _ r'))

theorem close (h : Alike n s s') (ht : s'.task? m = s.task? m) (hm : s.desk.send? m = none)
    (r r' : Result) : Alike n (s.finish m r) (s'.finish m r') :=
  h.finish ht (fun send hs => by rw [hm] at hs; cases hs) r r'

theorem foldl {α : Type} {f : Session σ → α → Session σ} (h : Alike n s s')
    (hf : ∀ s s' a, Alike n s s' → Alike n (f s a) (f s' a)) (as : List α) :
    Alike n (as.foldl f s) (as.foldl f s') := by
  induction as generalizing s s' with
  | nil => exact h
  | cons a as ih => exact ih (hf s s' a h)

/-! ## Changes that the send cannot see -/

theorem wake (n : Nat) (s : Session σ) (p : Party) : Alike n s (s.wake p) :=
  .of_eq (shell_wake s p) (desk_wake s p)

theorem wakeTasks (n : Nat) (s : Session σ) (p : Stage → Bool) : Alike n s (s.wakeTasks p) :=
  .of_eq (shell_wakeTasks s p) (desk_wakeTasks s p)

theorem alarm (n : Nat) (s : Session σ) (time : Nat) (p : Party) : Alike n s (s.alarm time p) :=
  .of_eq rfl rfl

/-- Both change, and the send sees neither change. -/
theorem both {t t' : Session σ} (h : Alike n s s') (ht : Alike n s t) (ht' : Alike n s' t') :
    Alike n t t' := (ht.symm.trans h).trans ht'

/-! ## The connection -/

theorem receive (h : Alike n s s') (x : Surroundings σ) (topic : String) (payload : List UInt8) :
    Alike n (s.receive x topic payload) (s'.receive x topic payload) := by
  refine ⟨(shell_receive x s' topic payload).trans (h.shell.trans
    (shell_receive x s topic payload).symm), ?_⟩
  by_cases ho : ∃ a, Dispatcher.outcomeOf topic payload = .taken (some a)
  · obtain ⟨a, ho⟩ := ho
    rw [desk_receive_forwarded x s ho, desk_receive_forwarded x s' ho, h.clock]
    exact (h.desk.note s.clock _).acknowledge a s.clock
  · rw [desk_receive_kept x s (not_exists.mp ho), desk_receive_kept x s' (not_exists.mp ho), h.clock]
    exact h.desk.note s.clock _

theorem perform (h : Alike n s s') (x : Surroundings σ) (e : Connection.Effect) :
    Alike n (s.perform x e) (s'.perform x e) := by
  cases e with
  | deliver topic payload => exact h.receive x topic payload
  | subscribe =>
    show Alike n (List.foldl _ s s.hub.connection.options.subscriptions.zipIdx)
      (List.foldl _ s' s'.hub.connection.options.subscriptions.zipIdx)
    rw [h.connection]
    refine h.foldl (fun s s' e h => ?_) _
    rw [h.client]
    exact h.note _
  | become new =>
    unfold Session.perform
    rw [h.connection]
    exact (h.setConnection _).note _

theorem performAll (h : Alike n s s') (x : Surroundings σ) (es : List Connection.Effect)
    (c : Connection) : Alike n (s.performAll x es c) (s'.performAll x es c) := by
  unfold Session.performAll
  induction es generalizing s s' with
  | nil => exact h.setConnection c
  | cons e es ih => exact ih (h.perform x e)

theorem polled (h : Alike n s s') (x : Surroundings σ) (p : Polled) (rest : List Polled)
    (es : List Connection.Effect) (c : Connection) :
    Alike n (({ s with link := rest }.note (.took p)).performAll x es c)
      (({ s' with link := rest }.note (.took p)).performAll x es c) :=
  ((h.setLink rest).note (.took p)).performAll x es c

theorem pollConnect (x : Surroundings σ) (events : List Polled) {s s' : Session σ}
    (h : Alike n s s') (ht : s'.task? m = s.task? m) (hm : s.desk.send? m = none) :
    Alike n (Session.pollConnect x m events s) (Session.pollConnect x m events s') := by
  induction events generalizing s s' with
  | nil => exact h.setLink []
  | cons p rest ih =>
    unfold Session.pollConnect
    rw [h.connection]
    rcases s.hub.connection.connectPolled p with ⟨c, es, point⟩
    have hpolled := h.polled x p rest es c
    have hcalm : Calm tally True s _ := calm_polled x s p rest es c
    have hcalm' : Calm tally True s' _ := calm_polled x s' p rest es c
    have ht' : Session.task? _ m = Session.task? _ m :=
      (congrFun hcalm'.tasks m).trans (ht.trans (congrFun hcalm.tasks m).symm)
    have hm' : Desk.send? _ m = none := (hcalm.send? m).trans hm
    cases point with
    | polling => exact ih (hpolled.note .polled) ht' hm'
    | connected =>
      have hspawn (s : Session σ) : s.spawnWorker.task? = s.task? :=
        congrArg Desk.task? (desk_spawnWorker s)
      refine Alike.close ?_ ?_ ?_ _ _
      · unfold spawnWorker
        rw [hpolled.connection]
        exact (hpolled.setWorker _).both (.wake n _ _) (.wake n _ _)
      · rw [hspawn, hspawn]
        exact ht'
      · rw [desk_spawnWorker]
        exact hm'
    | failed e => exact hpolled.close ht' hm' _ _

theorem rest (h : Alike n s s') (w : Connection.Worker) (ms : Nat) :
    Alike n ({ s with worker := some (w, .resting (s.clock + ms)) }.alarm (s.clock + ms) .worker)
      ({ s' with worker := some (w, .resting (s'.clock + ms)) }.alarm (s'.clock + ms) .worker) :=
  ⟨congrArg (fun k => { k with worker := some (w, .resting (k.clock + ms)) }) h.shell, h.desk⟩

theorem pollWorker (x : Surroundings σ) (w : Connection.Worker) (events : List Polled)
    {s s' : Session σ} (h : Alike n s s') :
    Alike n (Session.pollWorker x w events s) (Session.pollWorker x w events s') := by
  induction events generalizing s s' w with
  | nil => exact (h.setLink []).setWorker _
  | cons p rest ih =>
    unfold Session.pollWorker
    rw [h.connection]
    rcases s.hub.connection.workerPolled w p with ⟨c, es, w'⟩
    have hpolled := h.polled x p rest es c
    simp only
    split
    · split
      · exact ih _ (hpolled.note .polled)
      · exact hpolled.rest w' _
    · exact ih _ (hpolled.note .polled)

theorem startPoll (h : Alike n s s') (x : Surroundings σ) (w : Connection.Worker) :
    Alike n (s.startPoll x w) (s'.startPoll x w) := by
  unfold Session.startPoll
  rw [h.link]
  exact pollWorker x w s.link (h.note .polled)

theorem stopWorker (h : Alike n s s') (x : Surroundings σ) :
    Alike n (s.stopWorker x) (s'.stopWorker x) := by
  unfold Session.stopWorker
  rw [h.connection]
  rcases s.hub.connection.workerStopped with ⟨c, es⟩
  have hforget (s : Session σ) : Alike n s (s.forget .worker) := .of_eq rfl rfl
  exact (((h.performAll x es c).both (hforget _) (hforget _)).setWorker none).both
    (.wakeTasks n _ _) (.wakeTasks n _ _)

theorem resumeWorker (h : Alike n s s') (x : Surroundings σ) :
    Alike n (s.resumeWorker x) (s'.resumeWorker x) := by
  unfold Session.resumeWorker
  rw [h.worker]
  split
  · exact h
  · rw [h.connection]
    split
    · exact h.stopWorker x
    · split
      · exact h.startPoll x _
      · rw [h.link]
        exact pollWorker x _ _ h
      · rw [h.clock]
        split
        · exact h.startPoll x _
        · exact h

end Alike

end DeviceHub.Session
