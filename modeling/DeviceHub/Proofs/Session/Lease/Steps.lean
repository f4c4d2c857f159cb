import DeviceHub.Proofs.Session.Lease
import DeviceHub.Proofs.Session.Traffic

/-!
# Every action changes the lease in steps

* `aside_send`, `aside_publish`   tasks that do not concern the link;
* `Sees.passes`, `Shows.aside`    what a session shows afterwards;
* `Lease.Outcome`                 how a connect call stands after it has run;
* `lease_pollConnect`, `lease_resumeWorker`   the parties that poll the link;
* `Lease.Suited`                  the worker rests while it pauses, and only then;
* `fed`, `Punctual`               what the link is fed in moves, and whether their clock is punctual;
* `lease_act`, `lease_after`      actions and runs.
-/

namespace DeviceHub.Session

open Lease (Step Steps Reached)

variable {σ : Type} {o : Connection.Options} {exact : Prop}

/-! ## Tasks that do not wait for the link -/

section
variable (x : Surroundings σ) {s : Session σ} {n : Nat}

theorem Passes.not_polls {s s' : Session σ} {c : Connection} {es : List Entry}
    (h : Passes c es s s') (hn : ¬ s.Polls n) : ¬ s'.Polls n := (h.calls n).not.mpr hn

theorem aside_finishSend (hn : ¬ s.Polls n) (t : Task) (r : Except Command.Error Message.Ack) :
    Aside s (s.finishSend n t r) := by
  unfold finishSend
  have hnote : Aside s (s.note (.resolved n r)) := .note_aside s rfl
  refine hnote.aside_trans ?_
  split <;> exact .finish_aside _ (hnote.not_polls hn) rfl

theorem aside_race (hn : ¬ s.Polls n) (t : Task) (send : Command.Send) (limit : Nat) :
    Aside s (s.race x n t send limit) := by
  cases hr : send.race (t.cancelled = some true) (s.hub.pending.received? send.id)
    (limit ≤ s.clock) x.now with
  | some r =>
    rw [race_some x s n hr]
    have hlook : Aside s (s.note (.looked n (t.cancelled = some true) (limit ≤ s.clock) x.now)) :=
      .note_aside s rfl
    exact hlook.aside_trans (aside_finishSend (hlook.not_polls hn) t r)
  | none =>
    rw [race_none x s n hr]
    exact .note_aside s rfl

theorem aside_handed (hn : ¬ s.Polls n) (t : Task) (send : Option Command.Send)
    (r : Except PublishError Unit) : Aside s (s.handed x n t send r) := by
  cases send with
  | none => exact .finish_aside s hn rfl
  | some send =>
    have hnote : Aside s (s.note (.handed n r)) := .note_aside s rfl
    have hn' := hnote.not_polls hn
    cases r with
    | error e => exact hnote.aside_trans (aside_finishSend hn' t _)
    | ok u =>
      let t' : Task := { t with stage := .racing send (s.clock + send.limit.ticks) }
      have hput : Aside s ((s.note (.handed n (.ok u))).put n t') :=
        hnote.aside_trans (.put _ hn' (by simp [t']))
      have halarm := hput.aside_trans (.alarm _ (s.clock + send.limit.ticks) (.task n))
      exact halarm.aside_trans (aside_race x (halarm.not_polls hn) t send _)

theorem aside_publish (hn : ¬ s.Polls n) (t : Task) (send : Option Command.Send)
    (p : Publication) : Aside s (s.publish x n t send p) := by
  unfold publish
  split
  · exact aside_handed x hn t send _
  · have hnote : Aside s (s.note (.published p (send.map (·.id)))) := .note_aside s rfl
    have hn' := hnote.not_polls hn
    simp only
    split
    · exact hnote.aside_trans (aside_handed x hn' t send _)
    · split
      · exact hnote.aside_trans (aside_handed x hn' t send _)
      · exact (hnote.aside_trans (.put _ hn' (by simp))).aside_trans (.alarm _ _ _)

theorem aside_send (hn : ¬ s.Polls n) (t : Task) (r : Command.Request) :
    Aside s (s.send x n t r) := by
  unfold send
  split
  · exact aside_finishSend hn t _
  · rename_i send command _
    let h := { s.hub with pending := s.hub.pending.register send.id }
    have hhub : Aside s { s with hub := h, commands := s.commands + 1 } :=
      .of_eq rfl rfl rfl rfl rfl rfl rfl rfl
    have hnote := hhub.aside_trans (.note_aside _ (h := .registered n send command) rfl)
    have hput := hnote.aside_trans (.put _ (hnote.not_polls hn)
      (t := { t with stage := .handing (some send) s.clock }) (by simp))
    exact hput.aside_trans (aside_publish x (hput.not_polls hn) _ _ _)

theorem aside_serve (hn : ¬ s.Polls n) (t : Task) (r : Service.Request) :
    Aside s (s.serve x n t r) := by
  unfold serve
  split
  · exact .finish_aside s hn rfl
  · exact .finish_aside s hn rfl
  · exact aside_send x hn _ _

end

/-! ## Reading a lease after a change -/

theorem Lease.enter_enter (l : Lease) (es es' : List Entry) :
    (l.enter es).enter es' = l.enter (es ++ es') := by
  unfold Lease.enter
  simp only [List.map_append, List.reverse_append, List.append_assoc]

theorem Lease.head?_enter (l : Lease) (es : List Entry) (e : Entry) :
    (l.enter (es ++ [e])).log.head? = some (l.clock, e) := by
  unfold Lease.enter
  rw [List.map_append, List.reverse_append]
  rfl

section
variable {s s' : Session σ} {l : Lease} {c : Connection} {es : List Entry}

theorem Sees.passes (h : Sees o s l) (hp : Passes c es s s') (hc : c.options = o) :
    Sees o s' ({ l with status := c.status, stopping := c.stopping }.enter es) where
  options := by rw [hp.connection, hc]
  status := by rw [hp.connection]; rfl
  stopping := by rw [hp.connection]; rfl
  queue := by rw [hp.link, h.queue]; rfl
  clock := by rw [hp.clock, h.clock]; rfl
  log := by
    rw [hp.entries, h.log, h.clock]
    rfl

theorem Sees.become (h : Sees o s l) (hp : Passes c es s s')
    (ho : c.options = s.hub.connection.options) (hs : c.stopping = s.hub.connection.stopping) :
    Sees o s' ({ l with status := c.status }.enter es) := by
  have hsees := h.passes hp (ho.trans h.options)
  rw [hs, h.stopping] at hsees
  exact hsees

theorem Sees.enter (h : Sees o s l) (hp : Passes s.hub.connection es s s') :
    Sees o s' (l.enter es) := by
  have hsees := h.become hp rfl rfl
  rw [h.status] at hsees
  exact hsees

theorem HeldBy.passes {h : Holder} (hh : s.HeldBy h) (hp : Passes c es s s')
    (hc : c.linkHome = s.hub.connection.linkHome) : s'.HeldBy h where
  home := by rw [hp.connection, hc, hh.home]
  worker := hp.worker.trans hh.worker
  calls n := (hp.calls n).trans (hh.calls n)
  armed w limit hl := (hh.armed w limit hl).imp (hp.alarms limit)
    fun hturn => ⟨hp.clock ▸ hturn.1, hp.ready hturn.2⟩

theorem Shows.aside (h : Shows o s l) (ha : Aside s s') : Shows o s' l :=
  ⟨h.toSees.enter ha, h.held.passes ha rfl⟩

theorem Shows.enter (h : Shows o s l) (hp : Passes s.hub.connection es s s') :
    Shows o s' (l.enter es) := ⟨h.toSees.enter hp, h.held.passes hp rfl⟩

theorem Sees.change (h : Sees o s l) (holder : Holder) : Sees o s { l with holder := holder } :=
  ⟨h.options, h.status, h.stopping, h.queue, h.clock, h.log⟩

theorem Sees.held (h : Sees o s l) {holder : Holder} (hh : s.HeldBy holder) :
    Shows o s { l with holder := holder } := ⟨h.change holder, hh⟩

theorem Sees.finish (h : Sees o s l) (n : Nat) (r : Except TransportError Unit) :
    Sees o (s.finish n (.connected r)) (l.enter [.returned n r]) where
  options := h.options
  status := h.status
  stopping := h.stopping
  queue := h.queue
  clock := h.clock
  log := by
    show entries ((s.clock, .ended n (.connected r)) :: s.history) = _
    rw [entries_cons_some s.history rfl, h.log, h.clock]
    rfl

theorem HeldBy.finish {h : Holder} {n : Nat} (r : Result)
    (hhome : s.hub.connection.linkHome = h.isHome) (hworker : s.worker = h.worker?)
    (hcalls : ∀ m, s.Polls m → m = n) (hh : ∀ m, h ≠ .call m)
    (hrests : ∀ w limit, h ≠ .worker w (.resting limit)) : (s.finish n r).HeldBy h where
  home := hhome
  worker := hworker
  armed w limit hl := absurd hl (hrests w limit)
  calls m := by
    refine iff_of_false ?_ (hh m)
    rintro ⟨t, ht, hstage⟩
    have ht' : (s.remove n).task? m = some t := ht
    rw [Passes.task?_remove] at ht'
    split at ht'
    · cases ht'
    · rename_i hm
      exact hm (hcalls m ⟨t, ht', hstage⟩)

end

theorem passes_took (x : Surroundings σ) (s : Session σ) (p : Polled) (rest : List Polled)
    (es : List Connection.Effect) (c : Connection) :
    Passes c (.took p :: es.flatMap (Passes.effectEntries s.hub.connection.options))
      { s with link := rest } (({ s with link := rest }.note (.took p)).performAll x es c) := by
  let s₀ : Session σ := { s with link := rest }
  have htook : Passes s.hub.connection [.took p] s₀ (s₀.note (.took p)) := .note s₀ rfl
  exact htook.trans (Passes.performAll x (s₀.note (.took p)) es c)

theorem Sees.fed {s : Session σ} {l : Lease} (h : Sees o s l) (rest : List Polled) :
    Sees o { s with link := rest } { l with queue := rest } :=
  ⟨h.options, h.status, h.stopping, rfl, h.clock, h.log⟩

/-! ## Polls that pass -/

theorem polled_cases (p : Polled) :
    Lease.isPassing p = true ∨ p = .ok .connAck ∨ ∃ e, p = .error e := by
  rcases p with e | (_ | ⟨topic, payload⟩ | _)
  · exact Or.inr (Or.inr ⟨e, rfl⟩)
  · exact Or.inr (Or.inl rfl)
  · exact Or.inl rfl
  · exact Or.inl rfl

section
variable {p : Polled} (hp : Lease.isPassing p = true) (c : Connection)
include hp

theorem connectPolled_passing : ∃ es, c.connectPolled p = (c, es, .polling) ∧
    es.flatMap (Passes.effectEntries o) = [] := by
  rcases p with e | (_ | ⟨topic, payload⟩ | _)
  · cases hp
  · cases hp
  · exact ⟨_, rfl, rfl⟩
  · exact ⟨_, rfl, rfl⟩

theorem workerPolled_passing {w : Connection.Worker} (hw : ∀ delay, w.point ≠ .pausing delay) :
    ∃ es, c.workerPolled w p = (c, es, w) ∧ es.flatMap (Passes.effectEntries o) = [] := by
  unfold Connection.workerPolled
  cases hpoint : w.point with
  | pausing delay => exact absurd hpoint (hw delay)
  | listening | attempting =>
    rcases p with e | (_ | ⟨topic, payload⟩ | _)
    · cases hp
    · cases hp
    · exact ⟨_, rfl, rfl⟩
    · exact ⟨_, rfl, rfl⟩

end

theorem workerPolled_listening (c : Connection) {w : Connection.Worker} (hw : w.point = .listening) :
    c.workerPolled w (.ok .connAck) = (c, [.subscribe], w) ∧
    ∀ e, c.workerPolled w (.error e) =
      ({ c with status := .reconnecting }, [.become .reconnecting], { w with point := .attempting }) :=
  ⟨workerPolled_of_listening c hw _, fun _ => workerPolled_of_listening c hw _⟩

theorem workerPolled_attempting (c : Connection) {w : Connection.Worker} (hw : w.point = .attempting) :
    c.workerPolled w (.ok .connAck) = ({ c with status := .connected },
      [.become .connected, .subscribe], { backoff := w.backoff.reset, point := .listening }) ∧
    ∀ e, c.workerPolled w (.error e) = (c, [], Lease.paused w) :=
  ⟨workerPolled_of_attempting c hw _, fun _ => workerPolled_of_attempting c hw _⟩

theorem passes_turn (x : Surroundings σ) (s : Session σ) (p : Polled) (rest : List Polled)
    (es : List Connection.Effect) (c : Connection) :
    Passes c (Entry.took p :: es.flatMap (Passes.effectEntries s.hub.connection.options) ++
        [Entry.polled])
      { s with link := rest }
      ((({ s with link := rest }.note (.took p)).performAll x es c).note .polled) := by
  have htook := passes_took x s p rest es c
  generalize ({ s with link := rest }.note (.took p)).performAll x es c = s₁ at htook ⊢
  have hnote := Passes.note s₁ (h := .polled) rfl
  rw [htook.connection] at hnote
  exact htook.trans hnote

/-! ## Connect calls -/

namespace Lease

/-- How a connect call stands after it has run over the results that were there: it waits for the link,
it has failed and given the link back, or it has succeeded and handed the link to a worker. -/
inductive Outcome (n : Nat) (queue : List Polled) (l : Lease) : Prop
  | waits (hp : ∀ p ∈ queue, isPassing p = true) (hh : l.holder = .call n) (hq : l.queue = [])
  | failed (passed : List Polled) (e : TransportError) (hp : ∀ p ∈ passed, isPassing p = true)
      (hq : queue = passed ++ .error e :: l.queue) (hh : l.holder = .home)
      (hs : l.status = .disconnected) (hl : l.log.head? = some (l.clock, .returned n (.error e)))
  | connected (passed : List Polled) (w : Connection.Worker) (hp : ∀ p ∈ passed, isPassing p = true)
      (hq : queue = passed ++ .ok .connAck :: l.queue) (hh : l.holder = .worker w .fresh)
      (hs : l.status = .connected) (hl : l.log.head? = some (l.clock, .returned n (.ok ())))

theorem Outcome.pass {n : Nat} {p : Polled} {rest : List Polled} {l : Lease}
    (hp : isPassing p = true) (h : Outcome n rest l) : Outcome n (p :: rest) l := by
  have hcons {passed : List Polled} (hpassed : ∀ p ∈ passed, isPassing p = true) :
      ∀ q ∈ p :: passed, isPassing q = true :=
    List.forall_mem_cons.mpr ⟨hp, hpassed⟩
  cases h with
  | waits hrest hh hq => exact .waits (hcons hrest) hh hq
  | failed passed e hpassed hq hh hs hl =>
    exact .failed (p :: passed) e (hcons hpassed) (congrArg (p :: ·) hq) hh hs hl
  | connected passed w hpassed hq hh hs hl =>
    exact .connected (p :: passed) w (hcons hpassed) (congrArg (p :: ·) hq) hh hs hl

end Lease

section
variable (x : Surroundings σ)

theorem aside_spawnWorker (s : Session σ) :
    Aside { s with worker := some (s.hub.connection.worker, .fresh) } s.spawnWorker :=
  Passes.wake _ .worker

theorem Sees.spawnWorker {s : Session σ} {l : Lease} (h : Sees o s l) : Sees o s.spawnWorker l := by
  have hworker : Sees o { s with worker := some (s.hub.connection.worker, .fresh) } l :=
    ⟨h.options, h.status, h.stopping, h.queue, h.clock, h.log⟩
  exact hworker.enter (aside_spawnWorker s)

theorem lease_pollConnect (exact : Prop) {n : Nat} (events : List Polled) {s : Session σ} {l : Lease}
    (h : Shows o s l) (hl : l.holder = .call n) (hq : s.link = events) :
    ∃ l', Steps o exact l l' ∧ Shows o (pollConnect x n events s) l' ∧ l'.Outcome n events := by
  induction events generalizing s l with
  | nil =>
    have hsame : pollConnect x n [] s = s := by
      show { s with link := [] } = s
      rw [← hq]
    exact ⟨l, .refl, hsame ▸ h, .waits (List.forall_mem_nil _) hl (h.queue ▸ hq)⟩
  | cons p rest ih =>
    have hqueue : l.queue = p :: rest := h.queue ▸ hq
    have hhome : s.hub.connection.linkHome = false := h.held.home.trans (by rw [hl]; rfl)
    have hworker : s.worker = none := h.held.worker.trans (by rw [hl]; rfl)
    have hcalls (m : Nat) (hm : s.Polls m) : m = n := by
      have hm := (h.held.calls m).mp hm
      rw [hl, Holder.call.injEq] at hm
      exact hm.symm
    have hfed := h.toSees.fed rest
    have htook := passes_took x s p rest (s.hub.connection.connectPolled p).2.1
      (s.hub.connection.connectPolled p).1
    rcases polled_cases p with hp | rfl | ⟨e, rfl⟩
    · -- nothing is decided, and the call polls on
      obtain ⟨es, hpolled, hes⟩ := connectPolled_passing hp s.hub.connection
      have hturn := passes_turn x s p rest es s.hub.connection
      rw [hes] at hturn
      have hheld : HeldBy { s with link := rest } l.holder :=
        ⟨h.held.home, h.held.worker, h.held.calls, h.held.armed⟩
      have hnext := Shows.enter (l := { l with queue := rest }) ⟨hfed, hheld⟩ hturn
      unfold pollConnect
      rw [hpolled]
      simp only
      obtain ⟨l', hsteps, hshows, houtcome⟩ := ih hnext hl hnext.queue
      exact ⟨l', .head (.turn l n p rest hl hqueue hp) hsteps, hshows, houtcome.pass hp⟩
    · -- the call succeeds, and the worker gets the link
      have hentries : (s.hub.connection.connectPolled (.ok .connAck)).2.1.flatMap
          (Passes.effectEntries s.hub.connection.options) =
            .became .connected :: Lease.passEntries o := by
        rw [h.options]
        exact congrArg (_ :: ·) (List.append_nil _)
      rw [hentries] at htook
      unfold pollConnect
      change Passes { s.hub.connection with status := .connected, handle := true } _ _ _ at htook
      have hspawned := aside_spawnWorker (({ s with link := rest }.note (.took (.ok .connAck))
        |>.performAll x (s.hub.connection.connectPolled (.ok .connAck)).2.1
          (s.hub.connection.connectPolled (.ok .connAck)).1))
      have hsees := ((hfed.become htook rfl rfl).spawnWorker.finish n (.ok ())).held
        (HeldBy.finish (h := .worker { backoff := .new o.backoff } .fresh) (.connected (.ok ()))
          (by rw [hspawned.connection]; exact hhome) (by rw [hspawned.worker, ← h.options]; rfl)
          (fun m hm => hcalls m ((htook.calls m).mp ((hspawned.calls m).mp hm))) (by simp)
          (by simp))
      refine ⟨_, .single (.accept l n rest hl hqueue), ?_,
        .connected [] _ (List.forall_mem_nil _) rfl rfl rfl
          (Lease.head?_enter _ (_ :: _ :: Lease.passEntries o) _)⟩
      rw [Lease.enter_enter] at hsees
      exact hsees
    · -- the call fails, and the link is free again
      unfold pollConnect
      change Passes { s.hub.connection with status := .disconnected, linkHome := true } _ _ _ at htook
      have hsees := ((hfed.become htook rfl rfl).finish n (.error e)).held
        (HeldBy.finish (h := .home) (.connected (.error e)) (by rw [htook.connection]; rfl)
          (htook.worker.trans hworker) (fun m hm => hcalls m ((htook.calls m).mp hm)) (by simp)
          (by simp))
      refine ⟨_, .single (.fail l n e rest hl hqueue), ?_,
        .failed [] e (List.forall_mem_nil _) rfl rfl rfl rfl⟩
      rw [Lease.enter_enter] at hsees
      exact hsees

/-! ## The worker -/

/-- The link is neither free nor with a connect call. -/
structure Manned (s : Session σ) : Prop where
  home : s.hub.connection.linkHome = false
  calls : ∀ n, ¬ s.Polls n

theorem Manned.passes {s s' : Session σ} {c : Connection} {es : List Entry} (h : s.Manned)
    (hp : Passes c es s s') (hc : c.linkHome = s.hub.connection.linkHome) : s'.Manned where
  home := by rw [hp.connection, hc, h.home]
  calls n := hp.not_polls (h.calls n)

theorem Sees.employ {s : Session σ} {l : Lease} (h : Sees o s l) (hm : s.Manned)
    {w : Connection.Worker} {stage : WorkerStage} (hl : l.holder = .worker w stage)
    (harmed : s.Armed (.worker w stage)) : Shows o { s with worker := some (w, stage) } l where
  options := h.options
  status := h.status
  stopping := h.stopping
  queue := h.queue
  clock := h.clock
  log := h.log
  held := by
    rw [hl]
    exact ⟨hm.home, rfl, fun n => iff_of_false (hm.calls n) (by simp), harmed⟩

theorem shows_pause {w : Connection.Worker} {s : Session σ} {l : Lease} (h : Sees o s l)
    (hm : s.Manned) (e : TransportError) (rest : List Polled) :
    let s₁ := ({ s with link := rest }.note (.took (.error e))).performAll x [] s.hub.connection
    let stage (clock : Nat) := WorkerStage.resting (clock + w.backoff.next.1.ticks)
    Shows o { s₁.alarm (s₁.clock + w.backoff.next.1.ticks) .worker with
        worker := some (Lease.paused w, stage s₁.clock) }
      ({ l with holder := .worker (Lease.paused w) (stage l.clock), queue := rest }.enter
        [.took (.error e)]) := by
  intro s₁ stage
  have htook : Passes s.hub.connection [.took (.error e)] { s with link := rest } s₁ :=
    passes_took x s (.error e) rest [] s.hub.connection
  have hsees := ((h.fed rest).enter htook).change (.worker (Lease.paused w) (stage l.clock))
  have hclock : s₁.clock = l.clock := htook.clock.trans h.clock
  rw [hclock]
  -- the alarm is set together with the pause
  have halarm := Passes.alarm s₁ (l.clock + w.backoff.next.1.ticks) .worker
  have hmanned : Manned { s with link := rest } := ⟨hm.home, hm.calls⟩
  refine (hsees.enter halarm).employ ((hmanned.passes htook rfl).passes halarm rfl) rfl ?_
  intro w' limit' heq
  cases heq
  exact .inl (List.mem_append_right _ List.mem_cons_self)

theorem lease_pollWorker (events : List Polled) (w : Connection.Worker) {s : Session σ} {l : Lease}
    (h : Sees o s l) (hm : s.Manned) (hl : l.holder = .worker w .polling)
    (hs : l.stopping = false) (hw : ∀ delay, w.point ≠ .pausing delay) (hq : s.link = events) :
    ∃ l', Steps o exact l l' ∧ Shows o (pollWorker x w events s) l' := by
  induction events generalizing s l w with
  | nil =>
    have hsame : pollWorker x w [] s = { s with worker := some (w, .polling) } := by
      show { s with link := [], worker := some (w, .polling) } = _
      rw [← hq]
    exact ⟨l, .refl, hsame ▸ h.employ hm hl (fun w limit heq => by cases heq)⟩
  | cons p rest ih =>
    have hqueue : l.queue = p :: rest := h.queue ▸ hq
    have hm' : Manned { s with link := rest } := ⟨hm.home, hm.calls⟩
    have hfed := h.fed rest
    -- the worker polls on, in whatever state a step leaves the lease
    have hagain (c : Connection) (es : List Connection.Effect) (w' : Connection.Worker) {l₁ : Lease}
        (hc : c.options = s.hub.connection.options) (hhome : c.linkHome = s.hub.connection.linkHome)
        (hstop : c.stopping = s.hub.connection.stopping)
        (hl₁ : { { l with queue := rest, status := c.status }.enter
            (Entry.took p :: es.flatMap (Passes.effectEntries o) ++ [Entry.polled]) with
          holder := .worker w' .polling } = l₁)
        (hw' : ∀ delay, w'.point ≠ .pausing delay) (hsteps : Steps o exact l l₁) :
        ∃ l', Steps o exact l l' ∧ Shows o (pollWorker x w' rest
          ((({ s with link := rest }.note (.took p)).performAll x es c).note .polled)) l' := by
      have hturn := passes_turn x s p rest es c
      rw [h.options] at hturn
      have hsees := (hfed.become hturn hc hstop).change (.worker w' .polling)
      obtain ⟨l', hsteps', hshows⟩ := ih w' hsees (hm'.passes hturn hhome) rfl hs hw' hsees.queue
      subst hl₁
      exact ⟨l', hsteps.trans hsteps', hshows⟩
    have hpass : [Connection.Effect.subscribe].flatMap (Passes.effectEntries o) =
        Lease.passEntries o := List.append_nil _
    unfold pollWorker
    rcases polled_cases p with hp | rfl | ⟨e, rfl⟩
    · obtain ⟨es, hpolled, hes⟩ := workerPolled_passing hp s.hub.connection hw
      have hnext := hagain s.hub.connection es w rfl rfl rfl rfl hw (.single (by
        rw [hes, h.status, ← hl]
        exact .hear l w p rest hl hs hqueue hp))
      rw [hpolled]
      simp only
      exact hnext
    · cases hpoint : w.point with
      | pausing delay => exact absurd hpoint (hw delay)
      | listening =>
        have hpolled := (workerPolled_listening s.hub.connection hpoint).1
        rw [hpolled]
        simp only [hpoint]
        refine hagain s.hub.connection [.subscribe] w rfl rfl rfl rfl hw (.single ?_)
        rw [hpass, h.status, ← hl]
        exact .renew l w rest hl hs hpoint hqueue
      | attempting =>
        have hpolled := (workerPolled_attempting s.hub.connection hpoint).1
        rw [hpolled]
        refine hagain { s.hub.connection with status := .connected } [.become .connected, .subscribe]
          { backoff := w.backoff.reset, point := .listening } rfl rfl rfl rfl (by simp) (.single ?_)
        rw [List.flatMap_cons, hpass]
        exact .regain l w rest hl hs hpoint hqueue
    · cases hpoint : w.point with
      | pausing delay => exact absurd hpoint (hw delay)
      | listening =>
        have hpolled := (workerPolled_listening s.hub.connection hpoint).2 e
        rw [hpolled]
        exact hagain { s.hub.connection with status := .reconnecting } [.become .reconnecting]
          { w with point := .attempting } rfl rfl rfl rfl (by simp)
          (.single (.lose l w e rest hl hs hpoint hqueue))
      | attempting =>
        have hpolled := (workerPolled_attempting s.hub.connection hpoint).2 e
        have hpause : Step o exact l _ := .pause l w e rest hl hs hpoint hqueue
        rw [hpolled]
        simp only [Lease.paused]
        split
        · -- a pause of no length is over at once
          rename_i hzero
          have hover : l.clock + w.backoff.next.1.ticks ≤ l.clock := by
            rw [hzero]
            exact Nat.le_refl _
          refine hagain s.hub.connection [] _ rfl rfl rfl rfl (by simp [Connection.workerRested])
            (.head hpause ?_)
          rw [h.status]
          exact .single (.rest _ (Lease.paused w) _ rfl hs hover)
        · exact ⟨_, .single hpause, shows_pause x h hm e rest⟩

theorem lease_startPoll (exact : Prop) (w : Connection.Worker) {s : Session σ} {l : Lease} (h : Sees o s l)
    (hm : s.Manned) (hs : l.stopping = false) (hw : ∀ delay, w.point ≠ .pausing delay) :
    ∃ l', Steps o exact ({ l with holder := .worker w .polling }.enter [.polled]) l' ∧
      Shows o (startPoll x w s) l' := by
  have hnote : Passes s.hub.connection [.polled] s (s.note .polled) := .note s rfl
  exact lease_pollWorker x s.link w ((h.enter hnote).change (.worker w .polling))
    (hm.passes hnote rfl) rfl hs hw rfl

theorem lease_stopWorker {s : Session σ} {l : Lease} (h : Sees o s l) (hm : s.Manned) :
    Shows o (s.stopWorker x)
      ({ l with holder := .gone, status := .disconnected }.enter [.became .disconnected]) := by
  unfold stopWorker
  have hstop := Passes.performAll x s s.hub.connection.workerStopped.2
    s.hub.connection.workerStopped.1
  change Passes { s.hub.connection with status := .disconnected } [.became .disconnected] _ _ at hstop
  have hsees := h.become hstop rfl rfl
  have hmanned := hm.passes hstop rfl
  simp only
  generalize s.performAll x s.hub.connection.workerStopped.2 s.hub.connection.workerStopped.1 = s₁
    at hsees hmanned ⊢
  have hended : Shows o { s₁.forget .worker with worker := none }
      ({ l with holder := .gone, status := .disconnected }.enter [.became .disconnected]) :=
    ⟨⟨hsees.options, hsees.status, hsees.stopping, hsees.queue, hsees.clock, hsees.log⟩,
      hmanned.home, rfl, fun n => iff_of_false (hmanned.calls n) (by simp [Lease.enter]),
      fun w limit heq => by cases heq⟩
  exact hended.aside (Passes.wakeTasks _ _)

/-- The stage of the worker suits it. -/
def Lease.Suited (l : Lease) : Prop := ∀ w stage, l.holder = .worker w stage → stage.Suits w

theorem Holder.eq_worker {h : Holder} {w : Connection.Worker} {stage : WorkerStage}
    (hw : h.worker? = some (w, stage)) : h = .worker w stage := by
  cases h <;> cases hw
  rfl

theorem Shows.manned {s : Session σ} {l : Lease} (h : Shows o s l) {w : Connection.Worker}
    {stage : WorkerStage} (hl : l.holder = .worker w stage) : s.Manned where
  home := h.held.home.trans (by rw [hl]; rfl)
  calls n hn := by
    have hcall := (h.held.calls n).mp hn
    rw [hl] at hcall
    cases hcall

theorem lease_resumeWorker {s : Session σ} {l : Lease} (h : Shows o s l) (hsuited : l.Suited) :
    ∃ l', Steps o exact l l' ∧ Shows o (s.resume x .worker) l' := by
  let s₀ : Session σ := { s with ready := s.ready.filter (· ≠ .worker) }
  have hsees : Sees o s₀ l := ⟨h.options, h.status, h.stopping, h.queue, h.clock, h.log⟩
  have hstays (harmed : s₀.Armed l.holder) : ∃ l', Steps o exact l l' ∧ Shows o s₀ l' :=
    ⟨l, .refl, hsees, h.held.home, h.held.worker, h.held.calls, harmed⟩
  show ∃ l', Steps o exact l l' ∧ Shows o (s₀.resumeWorker x) l'
  unfold resumeWorker
  split
  · -- there is no worker
    rename_i hworker
    refine hstays fun w limit hl => ?_
    have hnone := h.held.worker.symm.trans hworker
    rw [hl] at hnone
    cases hnone
  · rename_i w stage hworker
    have hl : l.holder = .worker w stage := Holder.eq_worker (h.held.worker.symm.trans hworker)
    have hm : s₀.Manned := ⟨(h.manned hl).home, (h.manned hl).calls⟩
    have hsuits := hsuited w stage hl
    split
    · -- the worker notices that a shutdown was requested
      rename_i hstopping
      rw [hsees.stopping] at hstopping
      exact ⟨_, .single (.stop l w stage hl hstopping), lease_stopWorker x hsees hm⟩
    · rename_i hstopping
      rw [hsees.stopping, Bool.not_eq_true] at hstopping
      cases stage with
      | fresh =>
        obtain ⟨l', hsteps, hshows⟩ := lease_startPoll x exact w hsees hm hstopping hsuits
        exact ⟨l', .head (.wake l w hl hstopping) hsteps, hshows⟩
      | polling => exact lease_pollWorker x s.link w hsees hm hl hstopping hsuits rfl
      | resting limit =>
        simp only
        split
        · rename_i hlimit
          rw [hsees.clock] at hlimit
          obtain ⟨l', hsteps, hshows⟩ := lease_startPoll x exact (Connection.workerRested w) hsees hm
            hstopping (by simp [Connection.workerRested])
          exact ⟨l', .head (.rest l w limit hl hstopping hlimit) hsteps, hshows⟩
        · -- the worker is early, and its timer is still set
          rename_i hearly
          refine hstays fun w' limit' hl' => ?_
          have hsame := hl.symm.trans hl'
          cases hsame
          exact (h.held.armed w limit hl).imp_right fun hturn => absurd hturn.1 hearly

/-! ## Tasks -/

section
variable {s : Session σ} {l : Lease} {n : Nat} {t : Task} (h : Shows o s l)
  (ht : s.task? n = some t)
include h ht

theorem lease_connect_home (exact : Prop) (hl : l.holder = .home) :
    ∃ l', Steps o exact ({ l with holder := .call n, status := .connecting }.enter
        [.became .connecting, .polled]) l' ∧
      Shows o (s.connect x n t) l' ∧ l'.Outcome n s.link := by
  have hhome : s.hub.connection.linkHome = true := h.held.home.trans (by rw [hl]; rfl)
  have hworker : s.worker = none := h.held.worker.trans (by rw [hl]; rfl)
  have hnobody (m : Nat) : ¬ s.Polls m := by
    rw [h.held.calls, hl]
    simp
  have hconnect : s.hub.connection.connect =
      .ok ({ s.hub.connection with linkHome := false, status := .connecting },
        [.become .connecting]) := by
    unfold Connection.connect
    rw [if_pos hhome]
    rfl
  unfold connect
  rw [hconnect]
  simp only
  have hpass := Passes.performAll x s [.become .connecting]
    { s.hub.connection with linkHome := false, status := .connecting }
  change Passes _ [.became .connecting] _ _ at hpass
  have hcalm : Calm x.idOf True s (s.performAll x [.become .connecting]
    { s.hub.connection with linkHome := false, status := .connecting }) := calm_performAll x s _ _
  have hsees := h.toSees.become hpass rfl rfl
  generalize s.performAll x [.become .connecting]
    { s.hub.connection with linkHome := false, status := .connecting } = s₁ at hpass hcalm hsees ⊢
  have ht₁ : s₁.task? n = some t := (congrFun hcalm.tasks n).trans ht
  -- the call is the only one that waits for the link
  have hcalls (m : Nat) : (s₁.put n { t with stage := .polling }).Polls m ↔
      Holder.call n = .call m := by
    unfold Polls
    rw [Passes.task?_put, ht₁, Holder.call.injEq]
    by_cases hm : m = n
    · subst hm
      rw [if_pos rfl]
      exact iff_of_true ⟨_, rfl, rfl⟩ rfl
    · rw [if_neg hm]
      refine iff_of_false (fun hp => ?_) (Ne.symm hm)
      exact hnobody m ((hpass.calls m).mp hp)
  have hput : Shows o (s₁.put n { t with stage := .polling })
      ({ l with holder := .call n, status := .connecting }.enter [.became .connecting]) :=
    ⟨⟨hsees.options, hsees.status, hsees.stopping, hsees.queue, hsees.clock, hsees.log⟩,
      by rw [show (s₁.put n _).hub = s₁.hub from rfl, hpass.connection]; rfl,
      hpass.worker.trans hworker, hcalls, fun w limit heq => by cases heq⟩
  have hnote : Passes (s₁.put n { t with stage := .polling }).hub.connection [.polled]
    (s₁.put n { t with stage := .polling }) ((s₁.put n { t with stage := .polling }).note .polled) :=
    .note _ rfl
  have htaken := hput.enter hnote
  rw [Lease.enter_enter] at htaken
  obtain ⟨l', hsteps, hshows, houtcome⟩ := lease_pollConnect x exact s.link htaken rfl
    hpass.link
  have hlink : (s₁.put n { t with stage := .polling }).link = s.link := hpass.link
  rw [hlink]
  exact ⟨l', hsteps, hshows, houtcome⟩

theorem lease_connect_taken (hstage : t.stage = .fresh .connect) (hl : l.holder ≠ .home) :
    s.connect x n t = s.finish n (.connected (.error .alreadyStarted)) ∧
    Shows o (s.connect x n t) (l.enter [.returned n (.error .alreadyStarted)]) := by
  have hhome : s.hub.connection.linkHome = false := by
    rw [h.held.home]
    cases hh : l.holder with
    | home => exact absurd hh hl
    | call | worker | gone => rfl
  have hrefused : s.connect x n t = s.finish n (.connected (.error .alreadyStarted)) := by
    unfold connect Connection.connect
    rw [if_neg (Bool.eq_false_iff.mp hhome)]
  have hn : ¬ s.Polls n := by
    rw [polls_of_task ht, hstage]
    simp
  exact ⟨hrefused, hrefused ▸ h.enter (.finish s hn rfl)⟩

theorem lease_connect (hstage : t.stage = .fresh .connect) :
    ∃ l', Steps o exact l l' ∧ Shows o (s.connect x n t) l' := by
  by_cases hl : l.holder = .home
  · obtain ⟨l', hsteps, hshows, -⟩ := lease_connect_home x h ht exact hl
    exact ⟨l', .head (.take l n hl) hsteps, hshows⟩
  · exact ⟨_, .single (.refuse l n hl), (lease_connect_taken x h ht hstage hl).2⟩

end

theorem shows_finishShutdown {s : Session σ} {l : Lease} {n : Nat} (h : Shows o s l)
    (hn : ¬ s.Polls n) : Shows o (s.finishShutdown x n)
      ({ l with status := .disconnected }.enter [.became .disconnected]) := by
  unfold finishShutdown
  have hnote : Aside s (s.note .disconnected) := .note_aside s rfl
  have hpass := Passes.performAll x (s.note .disconnected) [.become .disconnected]
    { s.hub.connection with status := .disconnected }
  change Passes _ [.became .disconnected] _ _ at hpass
  have hall : Passes _ [.became .disconnected] s _ := hnote.after_aside hpass
  have hshows : Shows o _ ({ l with status := .disconnected }.enter [.became .disconnected]) :=
    ⟨h.toSees.become hall rfl rfl, h.held.passes hall rfl⟩
  exact hshows.aside (.finish_aside _ (hall.not_polls hn) rfl)

theorem lease_shutdown (exact : Prop) {s : Session σ} {l : Lease} {n : Nat} {t : Task} (h : Shows o s l)
    (hn : ¬ s.Polls n) :
    ∃ l', Steps o exact l l' ∧ Shows o (s.shutdown x n t) l' ∧ l'.holder = l.holder := by
  unfold shutdown
  let c : Connection := { s.hub.connection with stopping := true, handle := false }
  let s₁ : Session σ := { s with hub := { s.hub with connection := c } }
  have hhalted : Shows o s₁ { l with stopping := true } :=
    ⟨⟨h.options, h.status, rfl, h.queue, h.clock, h.log⟩, h.held.home, h.held.worker, h.held.calls,
      h.held.armed⟩
  have hwoken : Aside s₁ (if s.worker.isSome then s₁.wake .worker else s₁) := by
    split
    · exact .wake _ _
    · exact .refl _
  simp only [Connection.beginShutdown]
  change ∃ l', Steps o exact l l' ∧ Shows o
    (if (s.hub.connection.handle && (if s.worker.isSome then s₁.wake .worker else s₁).worker.isSome)
      then (if s.worker.isSome then s₁.wake .worker else s₁).put n { t with stage := .joining }
      else (if s.worker.isSome then s₁.wake .worker else s₁).finishShutdown x n) l' ∧
    l'.holder = l.holder
  generalize (if s.worker.isSome then s₁.wake .worker else s₁) = s₂ at hwoken ⊢
  have hshows := hhalted.aside hwoken
  have hn' := hwoken.not_polls (n := n) hn
  split
  · exact ⟨_, .single (.halt l), hshows.aside (.put _ hn' (by simp)), rfl⟩
  · exact ⟨_, .head (.halt l) (.single (.finish _)), shows_finishShutdown x hshows hn', rfl⟩

theorem lease_resumeOther (exact : Prop) {s : Session σ} {l : Lease} {n : Nat} {t : Task} (h : Shows o s l)
    (hn : ¬ s.Polls n) (hpolling : t.stage ≠ .polling) (hconnect : t.stage ≠ .fresh .connect) :
    ∃ l', Steps o exact l l' ∧ Shows o (s.resumeTask x n t) l' ∧ l'.holder = l.holder := by
  have haside {s' : Session σ} (ha : Aside s s') :
      ∃ l', Steps o exact l l' ∧ Shows o s' l' ∧ l'.holder = l.holder :=
    ⟨l, .refl, h.aside ha, rfl⟩
  unfold resumeTask
  cases hstage : t.stage with
  | fresh job =>
    cases job with
    | connect => exact absurd hstage hconnect
    | shutdown => exact lease_shutdown x exact h hn
    | send r => exact haside (aside_send x hn t r)
    | publish p => exact haside (aside_publish x hn t none p)
    | serve r => exact haside (aside_serve x hn t r)
  | polling => exact absurd hstage hpolling
  | joining =>
    simp only
    split
    · exact ⟨_, .single (.finish l), shows_finishShutdown x h hn, rfl⟩
    · exact haside (.refl s)
  | handing send limit =>
    simp only
    split
    · exact haside (aside_handed x hn t send _)
    · exact haside (.refl s)
  | racing send limit => exact haside (aside_race x hn t send limit)

theorem lease_resumeTask {s : Session σ} {l : Lease} {n : Nat} {t : Task} (h : Shows o s l)
    (ht : s.task? n = some t) : ∃ l', Steps o exact l l' ∧ Shows o (s.resumeTask x n t) l' := by
  have hpolls := polls_of_task ht
  by_cases hpolling : t.stage = .polling
  · have hl : l.holder = .call n := (h.held.calls n).mp (hpolls.mpr hpolling)
    obtain ⟨l', hsteps, hshows, -⟩ := lease_pollConnect x exact s.link h hl rfl
    unfold resumeTask
    rw [hpolling]
    exact ⟨l', hsteps, hshows⟩
  by_cases hconnect : t.stage = .fresh .connect
  · unfold resumeTask
    rw [hconnect]
    exact lease_connect x h ht hconnect
  · obtain ⟨l', hsteps, hshows, -⟩ := lease_resumeOther x exact h
      (hpolls.not.mpr hpolling) hpolling hconnect
    exact ⟨l', hsteps, hshows⟩

end

/-! ## Parties, and what comes from outside -/

theorem Shows.unready {s : Session σ} {l : Lease} (h : Shows o s l) (n : Nat) :
    Shows o { s with ready := s.ready.filter (· ≠ .task n) } l :=
  ⟨⟨h.options, h.status, h.stopping, h.queue, h.clock, h.log⟩, h.held.home, h.held.worker,
    h.held.calls, fun w limit hl => (h.held.armed w limit hl).imp_right
      (And.imp_right fun hready => List.mem_filter.mpr ⟨hready, by simp⟩)⟩

theorem aside_wakes (due : List (Nat × Party)) (s : Session σ) :
    Aside s (due.foldl (fun s e => s.wake e.2) s) := by
  induction due generalizing s with
  | nil => exact .refl s
  | cons e due ih => exact (Passes.wake s e.2).aside_trans (ih _)

theorem worker_ready_of_due {due : List (Nat × Party)} {time : Nat} (hmem : (time, .worker) ∈ due)
    (s : Session σ) : .worker ∈ (due.foldl (fun s e => s.wake e.2) s).ready := by
  induction due generalizing s with
  | nil => cases hmem
  | cons e due ih =>
    rcases List.mem_cons.mp hmem with rfl | hmem
    · refine (aside_wakes due (s.wake .worker)).ready ?_
      unfold wake
      split
      · assumption
      · exact List.mem_append_right _ List.mem_cons_self
    · exact ih hmem _

theorem aside_drop {s : Session σ} {n : Nat} (hn : ¬ s.Polls n) : Aside s (s.drop n) := by
  unfold drop
  split
  · exact (Passes.remove s hn).aside_trans (.note_aside _ rfl)
  · exact .refl s

section
variable (x : Surroundings σ) {s : Session σ} {l : Lease} (h : Shows o s l)
include h

theorem lease_resume (hsuited : l.Suited) (p : Party) :
    ∃ l', Steps o exact l l' ∧ Shows o (s.resume x p) l' := by
  cases p with
  | worker => exact lease_resumeWorker x h hsuited
  | task n =>
    cases ht : s.task? n with
    | none =>
      rw [resume_task_none x s ht]
      exact ⟨l, .refl, h.unready _⟩
    | some t =>
      rw [resume_task_some x s ht]
      exact lease_resumeTask x (h.unready n) ht

theorem shows_drop {n : Nat} (hn : s.Polls n) : Shows o (s.drop n) { l with holder := .gone } := by
  have hl : l.holder = .call n := (h.held.calls n).mp hn
  have hgone : Shows o (s.remove n) { l with holder := .gone } := by
    refine ⟨⟨h.options, h.status, h.stopping, h.queue, h.clock, h.log⟩,
      h.held.home.trans (by rw [hl]; rfl), h.held.worker.trans (by rw [hl]; rfl), fun m => ?_,
      fun w limit heq => by cases heq⟩
    refine iff_of_false ?_ (by simp)
    rintro ⟨t, ht, hstage⟩
    rw [Passes.task?_remove] at ht
    split at ht
    · cases ht
    · rename_i hm
      have hcall := (h.held.calls m).mp ⟨t, ht, hstage⟩
      rw [hl, Holder.call.injEq] at hcall
      exact hm hcall.symm
  obtain ⟨t, ht, -⟩ := hn
  unfold drop
  rw [ht]
  exact hgone.aside (.note_aside _ rfl)

theorem lease_drop (n : Nat) : ∃ l', Steps o exact l l' ∧ Shows o (s.drop n) l' := by
  by_cases hn : s.Polls n
  · exact ⟨_, .single (.drop l n ((h.held.calls n).mp hn)), shows_drop h hn⟩
  · exact ⟨l, .refl, h.aside (aside_drop hn)⟩

theorem shows_reach (time : Nat) : Shows o (s.reach time) { l with clock := max l.clock time } := by
  unfold reach
  simp only
  generalize hdue : s.timers.filter (fun e => e.1 ≤ time) = due
  have hwoken := aside_wakes due { s with
    clock := max s.clock time, timers := s.timers.filter fun e => ¬ e.1 ≤ time }
  have hsees : Sees o { s with
      clock := max s.clock time, timers := s.timers.filter fun e => ¬ e.1 ≤ time }
      { l with clock := max l.clock time } :=
    ⟨h.options, h.status, h.stopping, h.queue, congrArg (max · time) h.clock, h.log⟩
  refine ⟨hsees.enter hwoken, ?_, hwoken.worker.trans h.held.worker,
    fun n => (hwoken.calls n).trans (h.held.calls n), fun w limit hl => ?_⟩
  · rw [hwoken.connection]
    exact h.held.home
  · rcases h.held.armed w limit hl with htimer | ⟨hclock, hready⟩
    · by_cases hlimit : limit ≤ time
      · refine .inr ⟨?_, worker_ready_of_due (hdue ▸ List.mem_filter.mpr ⟨htimer, by simpa⟩) _⟩
        rw [hwoken.clock]
        exact hlimit.trans (Nat.le_max_right ..)
      · exact .inl (hwoken.alarms _ (List.mem_filter.mpr ⟨htimer, by simpa using hlimit⟩))
    · refine .inr ⟨?_, hwoken.ready hready⟩
      rw [hwoken.clock]
      exact hclock.trans (Nat.le_max_left ..)

theorem shows_feed (events : List Polled) :
    Shows o (s.feed events) { l with queue := l.queue ++ events } := by
  unfold feed
  have hfed : Shows o { s with link := s.link ++ events } { l with queue := l.queue ++ events } :=
    ⟨⟨h.options, h.status, h.stopping, congrArg (· ++ events) h.queue, h.clock, h.log⟩,
      h.held.home, h.held.worker, h.held.calls, h.held.armed⟩
  simp only
  refine Shows.aside ?_ (Passes.wakeTasks _ _)
  split
  · exact hfed.aside (.wake _ _)
  · exact hfed

end

theorem aside_cancel (s : Session σ) (n : Nat) : Aside s (s.cancel n) := by
  unfold cancel
  split
  · exact .refl s
  · rename_i t ht
    have hput (t' : Task) (hstage : t'.stage = t.stage) : Aside s (s.put n t') := by
      refine ⟨rfl, rfl, fun m => ?_, rfl, rfl, rfl, fun _ h => h, id⟩
      unfold Polls
      rw [Passes.task?_put]
      by_cases hm : m = n
      · subst hm
        rw [if_pos rfl, ht]
        simp [hstage]
      · rw [if_neg hm]
    have hcancelled := hput { t with cancelled := t.cancelled.map fun _ => true } rfl
    simp only
    split
    · split
      · exact hcancelled.aside_trans (.wake _ _)
      · exact hcancelled
    · exact hcancelled

theorem aside_start (s : Session σ) (job : Job) (token : Option Bool) :
    Aside s (s.start job token) := by
  unfold start
  have hstarted : Aside s { s with
      started := s.started + 1
      tasks := s.tasks ++ [(s.started + 1, { stage := .fresh job, cancelled := token })] } := by
    refine ⟨rfl, rfl, fun m => ?_, rfl, rfl, rfl, fun _ h => h, id⟩
    unfold Polls task?
    rw [lookup_append_one]
    cases s.tasks.lookup m with
    | some t => simp
    | none =>
      by_cases hm : m = s.started + 1
      · simp [hm]
      · simp [hm]
  exact hstarted.aside_trans (.wake _ _)

theorem aside_answer (x : Surroundings σ) (s : Session σ) (n : Nat)
    (r : Except TransportError Unit) : Aside s (s.answer x n r) := by
  unfold answer
  split
  · exact .refl s
  · rename_i t ht
    split
    · rename_i hstage
      refine aside_handed x ?_ t _ _
      rw [polls_of_task ht, hstage]
      simp
    · exact .refl s

theorem aside_acknowledge (s : Session σ) (a : Message.Ack) : Aside s (s.acknowledge a) := by
  unfold acknowledge
  have hhub : Aside s { s with hub := s.hub.acknowledge a } :=
    .of_eq rfl rfl rfl rfl rfl rfl rfl rfl
  exact (hhub.aside_trans (.note_aside _ (h := .acknowledged a) rfl)).aside_trans (.wakeTasks _ _)

/-! ## Actions -/

namespace Lease

theorem Suited.employ {w : Connection.Worker} (stage : WorkerStage) (h : stage.Suits w) (l : Lease) :
    Suited { l with holder := .worker w stage } := by
  intro w' stage' heq
  cases heq
  exact h

theorem Suited.step {l l' : Lease} (h : l.Suited) (hstep : Step o exact l l') : l'.Suited := by
  cases hstep with
  | take | fail | drop | stop => exact fun w stage hl => by cases hl
  | accept n rest hh hq =>
    exact .employ .fresh (fun delay => by simp) { l with status := _, queue := _, log := _ }
  | wake w hh hs => exact .employ .polling (h w .fresh hh) { l with log := _ }
  | lose w e rest hh hs hw hq =>
    exact .employ .polling (fun delay => by simp)
      { l with status := _, queue := _, log := _ }
  | regain w rest hh hs hw hq =>
    exact .employ .polling (fun delay => by simp)
      { l with status := _, queue := _, log := _ }
  | pause w e rest hh hs hw hq =>
    exact .employ (.resting _) ⟨_, rfl⟩ { l with queue := _, log := _ }
  | rest w limit hh hs hl =>
    exact .employ .polling (fun delay => by simp [Connection.workerRested])
      { l with log := _ }
  | _ => exact h

theorem Reached.suited {fed : List Polled} {l : Lease} (h : Reached o exact fed l) : l.Suited := by
  induction h with
  | start => exact fun w stage hl => by cases hl
  | step _ hstep ih => exact ih.step hstep
  | feed _ es ih => exact ih

end Lease

def Action.fed : Action → List Polled
  | .feed events => events
  | _ => []

def fed (ms : List (Move σ)) : List Polled := ms.flatMap fun m => m.2.fed

theorem fed_append_one (ms : List (Move σ)) (m : Move σ) : fed (ms ++ [m]) = fed ms ++ m.2.fed := by
  unfold fed
  rw [List.flatMap_append, List.flatMap_singleton]

section
variable (x : Surroundings σ) {s : Session σ} {l : Lease} (h : Shows o s l)
include h

/-- Every action changes the lease in steps, after it has fed the link. -/
theorem lease_act (exact : Prop) (hsuited : l.Suited) (a : Action)
    (hexact : exact → ∀ time, a = .reach time → l.stopping = false →
      ∀ w limit, l.holder = .worker w (.resting limit) → time ≤ limit) :
    ∃ l', Steps o exact { l with queue := l.queue ++ a.fed } l' ∧ Shows o (s.act x a) l' := by
  have hnone {s' : Session σ} (hsteps : ∃ l', Steps o exact l l' ∧ Shows o s' l') :
      ∃ l', Steps o exact { l with queue := l.queue ++ [] } l' ∧ Shows o s' l' := by
    rw [List.append_nil]
    exact hsteps
  have haside {s' : Session σ} (ha : Aside s s') :
      ∃ l', Steps o exact { l with queue := l.queue ++ [] } l' ∧ Shows o s' l' :=
    hnone ⟨l, .refl, h.aside ha⟩
  cases a with
  | resume p => exact hnone (lease_resume x h hsuited p)
  | start job token => exact haside (aside_start s job token)
  | cancel n => exact haside (aside_cancel s n)
  | drop n => exact hnone (lease_drop h n)
  | feed events => exact ⟨_, .refl, shows_feed h events⟩
  | behave c => exact haside (.of_eq rfl rfl rfl rfl rfl rfl rfl rfl)
  | answer n r => exact haside (aside_answer x s n r)
  | acknowledge a => exact haside (aside_acknowledge s a)
  | message topic payload => exact haside (Passes.receive x s topic payload)
  | reach time =>
    exact hnone ⟨_, .single (.reach l time fun he => hexact he time rfl), shows_reach h time⟩

end

theorem shows_new {hub : Hub σ} (hc : hub.connection = { options := o }) :
    Shows o (new hub) {} where
  options := congrArg Connection.options hc
  status := congrArg Connection.status hc
  stopping := congrArg Connection.stopping hc
  queue := rfl
  clock := rfl
  log := rfl
  held := ⟨congrArg Connection.linkHome hc, rfl, fun n =>
    iff_of_false (fun ⟨_, ht, _⟩ => by cases ht) (by simp), fun w limit hl => by cases hl⟩

/-- The clock does not move while a party can run, and does not pass a timer. -/
def PunctualAt (s : Session σ) : Action → Prop
  | .reach time => s.ready = [] ∧ ∀ e ∈ s.timers, time ≤ e.1
  | _ => True

/-- in a run the clock is punctual -/
def Punctual (s : Session σ) (ms : List (Move σ)) : Prop :=
  ∀ before m later, ms = before ++ m :: later → (s.after before).PunctualAt m.2

theorem Punctual.nil (s : Session σ) : s.Punctual [] := fun before _ _ hms => by
  cases before <;> cases hms

theorem Punctual.cons {s : Session σ} {m : Move σ} {ms : List (Move σ)} (h : s.PunctualAt m.2)
    (h' : (s.act m.1 m.2).Punctual ms) : s.Punctual (m :: ms) := by
  intro before m' later hms
  cases before with
  | nil =>
    cases hms
    exact h
  | cons _ before =>
    cases hms
    exact h' before m' later rfl

theorem Punctual.init {s : Session σ} {ms : List (Move σ)} {m : Move σ}
    (h : s.Punctual (ms ++ [m])) : s.Punctual ms := fun before m' later hms =>
  h before m' (later ++ [m]) (by rw [hms, List.append_assoc]; rfl)

/-- In every run a lease is shown, which the link was fed for; an exact one if the clock is punctual. -/
theorem lease_after {hub : Hub σ} (hc : hub.connection = { options := o }) (ms : List (Move σ))
    (hpunctual : exact → (new hub).Punctual ms) :
    ∃ l, Reached o exact (fed ms) l ∧ Shows o ((new hub).after ms) l := by
  induction ms using List.reverseRecOn with
  | nil => exact ⟨{}, .start, shows_new hc⟩
  | append_singleton ms m ih =>
    obtain ⟨l, hl, hshows⟩ := ih fun he => (hpunctual he).init
    rw [after_append, fed_append_one]
    obtain ⟨l', hsteps, hshows'⟩ := lease_act m.1 hshows exact hl.suited m.2 fun he time ha _ w limit hw => by
      have hat := hpunctual he ms m [] rfl
      rw [ha] at hat
      rcases hshows.held.armed w limit hw with htimer | ⟨-, hready⟩
      · exact hat.2 _ htimer
      · rw [hat.1] at hready
        cases hready
    exact ⟨l', (hl.feed m.2.fed).steps hsteps, hshows'⟩

end DeviceHub.Session
