import DeviceHub.Proofs.Backoff
import DeviceHub.Proofs.Session.Steps

/-!
# The lease of the link: who polls it, and when

The link to the broker is passed on: a connect call takes it, hands it to the worker or gives it back.
The lease of a session is what matters for that.

* `Entry`, `entries`        what happens to the link, and when;
* `Session.Polls`           a connect call that waits for the link;
* `Holder`, `Lease`         who holds the link, and the lease;
* `Lease.Step`              one change of a lease, with what has to hold for it;
* `Lease.Reached`           the leases that come of such changes, with what the link was fed;
* `Session.Shows`           a session shows a lease;
* `Session.Passes`          from one session to another entries are made, and nobody else holds the link;
* `Passes.note` ... `Passes.performAll`   operations of a session.

A lease changes in these steps only, which `Session.lease_act` shows of every action.
-/

namespace DeviceHub

namespace Session

open Connection (Status)

/-- What happens to the link: a poll begins or ends, the client is asked to subscribe, the state is
set, or a connect call returns. -/
inductive Entry
  | polled
  | took (p : Polled)
  | asked
  | became (s : Status)
  | returned (n : Nat) (r : Except TransportError Unit)

def Happening.logged? : Happening → Option Entry
  | .polled => some .polled
  | .took p => some (.took p)
  | .subscribed .. => some .asked
  | .became _ new => some (.became new)
  | .ended n (.connected r) => some (.returned n r)
  | _ => none

/-- entries with their times, the latest first -/
abbrev Log := List (Nat × Entry)

def entries (h : History) : Log := h.filterMap fun e => e.2.logged?.map (e.1, ·)

theorem entries_cons_none {e : Nat × Happening} (h : History) (he : e.2.logged? = none) :
    entries (e :: h) = entries h := by
  unfold entries
  rw [List.filterMap_cons_none (by rw [he]; rfl)]

theorem entries_cons_some {e : Nat × Happening} (h : History) {entry : Entry}
    (he : e.2.logged? = some entry) : entries (e :: h) = (e.1, entry) :: entries h := by
  unfold entries
  rw [List.filterMap_cons_some (by rw [he]; rfl)]

/-! ## Leases -/

/-- who holds the link: nobody, a connect call, or the worker; or it is gone -/
inductive Holder
  | home
  | call (n : Nat)
  | worker (w : Connection.Worker) (stage : WorkerStage)
  | gone

/-- Who holds the link, the state that others see, whether a shutdown was requested, the results that
no poll took yet, the time, and what happened to the link. -/
structure Lease where
  holder : Holder := .home
  status : Status := .disconnected
  stopping : Bool := false
  queue : List Polled := []
  clock : Nat := 0
  log : Log := []

namespace Lease

/-- entries are made, the first of them first -/
def enter (l : Lease) (es : List Entry) : Lease :=
  { l with log := (es.map fun e => (l.clock, e)).reverse ++ l.log }

def passEntries (o : Connection.Options) : List Entry := o.subscriptions.map fun _ => .asked

/-- one pass over all subscriptions, and what comes then -/
def passThen (o : Connection.Options) (e : Entry) : List Entry := passEntries o ++ [e]

/-- whether a result ends neither an attempt to connect nor a connection -/
def isPassing : Polled → Bool
  | .ok (.publish ..) | .ok .other => true
  | _ => false

def paused (w : Connection.Worker) : Connection.Worker :=
  { backoff := w.backoff.next.2, point := .pausing w.backoff.next.1 }

/-- One change of a lease.  If `exact` says so, the time never passes the end of a pause. -/
inductive Step (o : Connection.Options) (exact : Prop) : Lease → Lease → Prop
  /-- the time goes on -/
  | reach (l time)
      (hexact : exact → l.stopping = false →
        ∀ w limit, l.holder = .worker w (.resting limit) → time ≤ limit) :
      Step o exact l { l with clock := max l.clock time }
  /-- a connect call does not get the link -/
  | refuse (l n) (hh : l.holder ≠ .home) :
      Step o exact l (l.enter [.returned n (.error .alreadyStarted)])
  /-- a connect call takes the link -/
  | take (l n) (hh : l.holder = .home) : Step o exact l
      ({ l with holder := .call n, status := .connecting }.enter [.became .connecting, .polled])
  /-- a connect call polls on -/
  | turn (l n p rest) (hh : l.holder = .call n) (hq : l.queue = p :: rest) (hp : isPassing p = true) :
      Step o exact l ({ l with queue := rest }.enter [.took p, .polled])
  /-- a connect call fails, and gives the link back -/
  | fail (l n e rest) (hh : l.holder = .call n) (hq : l.queue = .error e :: rest) : Step o exact l
      ({ l with holder := .home, status := .disconnected, queue := rest }.enter
        [.took (.error e), .became .disconnected, .returned n (.error e)])
  /-- a connect call succeeds, and hands the link to a worker -/
  | accept (l n rest) (hh : l.holder = .call n) (hq : l.queue = .ok .connAck :: rest) :
      Step o exact l ({ l with
          holder := .worker { backoff := .new o.backoff } .fresh, status := .connected
          queue := rest }.enter
        (.took (.ok .connAck) :: .became .connected :: passThen o (.returned n (.ok ()))))
  /-- a connect call is given up, and the link with it -/
  | drop (l n) (hh : l.holder = .call n) : Step o exact l { l with holder := .gone }
  /-- the worker polls for the first time -/
  | wake (l w) (hh : l.holder = .worker w .fresh) (hs : l.stopping = false) :
      Step o exact l ({ l with holder := .worker w .polling }.enter [.polled])
  /-- the worker polls on -/
  | hear (l w p rest) (hh : l.holder = .worker w .polling) (hs : l.stopping = false)
      (hq : l.queue = p :: rest) (hp : isPassing p = true) :
      Step o exact l ({ l with queue := rest }.enter [.took p, .polled])
  /-- the broker accepts a connection that stands -/
  | renew (l w rest) (hh : l.holder = .worker w .polling) (hs : l.stopping = false)
      (hw : w.point = .listening) (hq : l.queue = .ok .connAck :: rest) : Step o exact l
      ({ l with queue := rest }.enter (.took (.ok .connAck) :: passThen o .polled))
  /-- the connection is lost, and the worker attempts to connect again -/
  | lose (l w e rest) (hh : l.holder = .worker w .polling) (hs : l.stopping = false)
      (hw : w.point = .listening) (hq : l.queue = .error e :: rest) : Step o exact l
      ({ l with
          holder := .worker { w with point := .attempting } .polling, status := .reconnecting
          queue := rest }.enter [.took (.error e), .became .reconnecting, .polled])
  /-- an attempt succeeds -/
  | regain (l w rest) (hh : l.holder = .worker w .polling) (hs : l.stopping = false)
      (hw : w.point = .attempting) (hq : l.queue = .ok .connAck :: rest) : Step o exact l
      ({ l with
          holder := .worker { backoff := w.backoff.reset, point := .listening } .polling
          status := .connected, queue := rest }.enter
        (.took (.ok .connAck) :: .became .connected :: passThen o .polled))
  /-- an attempt fails, and the worker pauses -/
  | pause (l w e rest) (hh : l.holder = .worker w .polling) (hs : l.stopping = false)
      (hw : w.point = .attempting) (hq : l.queue = .error e :: rest) : Step o exact l
      ({ l with
          holder := .worker (paused w) (.resting (l.clock + w.backoff.next.1.ticks))
          queue := rest }.enter [.took (.error e)])
  /-- the pause of the worker ends -/
  | rest (l w limit) (hh : l.holder = .worker w (.resting limit)) (hs : l.stopping = false)
      (hl : limit ≤ l.clock) : Step o exact l
      ({ l with holder := .worker (Connection.workerRested w) .polling }.enter [.polled])
  /-- the worker ends, and the link with it -/
  | stop (l w stage) (hh : l.holder = .worker w stage) (hs : l.stopping = true) : Step o exact l
      ({ l with holder := .gone, status := .disconnected }.enter [.became .disconnected])
  /-- a shutdown is requested -/
  | halt (l) : Step o exact l { l with stopping := true }
  /-- a shutdown call ends -/
  | finish (l) :
      Step o exact l ({ l with status := .disconnected }.enter [.became .disconnected])

abbrev Steps (o : Connection.Options) (exact : Prop) : Lease → Lease → Prop :=
  Relation.ReflTransGen (Step o exact)

/-- the leases that come of a link that was fed results -/
inductive Reached (o : Connection.Options) (exact : Prop) : List Polled → Lease → Prop
  | start : Reached o exact [] {}
  | step {fed l l'} (h : Reached o exact fed l) (hstep : Step o exact l l') : Reached o exact fed l'
  | feed {fed l} (h : Reached o exact fed l) (es : List Polled) :
      Reached o exact (fed ++ es) { l with queue := l.queue ++ es }

theorem Step.suffix {o : Connection.Options} {exact : Prop} {l l' : Lease} (h : Step o exact l l') :
    l.log <:+ l'.log := by
  cases h with
  | reach | drop | halt => exact List.suffix_rfl
  | _ => exact List.suffix_append ..

theorem Steps.suffix {o : Connection.Options} {exact : Prop} {l l' : Lease}
    (h : Steps o exact l l') : l.log <:+ l'.log := by
  induction h with
  | refl => exact List.suffix_rfl
  | tail _ hstep ih => exact ih.trans hstep.suffix

theorem Reached.steps {o : Connection.Options} {exact : Prop} {fed : List Polled} {l l' : Lease}
    (h : Reached o exact fed l) (hsteps : Steps o exact l l') : Reached o exact fed l' := by
  induction hsteps with
  | refl => exact h
  | tail _ hstep ih => exact ih.step hstep

end Lease

end Session

/-! ## The lease of a session -/

namespace Session

variable {σ : Type}

/-- a connect call waits for the link -/
def Polls (s : Session σ) (n : Nat) : Prop := ∃ t, s.task? n = some t ∧ t.stage = .polling

/-- whether a holder leaves the link free -/
def Holder.isHome : Holder → Bool
  | .home => true
  | _ => false

/-- whether the link is free or with a connect call -/
def Holder.isOpen : Holder → Bool
  | .home | .call _ => true
  | _ => false

def Holder.worker? : Holder → Option (Connection.Worker × WorkerStage)
  | .worker w stage => some (w, stage)
  | _ => none

/-- A worker that rests will be woken: its timer is set, or its turn has come. -/
def Armed (s : Session σ) (h : Holder) : Prop :=
  ∀ w limit, h = .worker w (.resting limit) →
    (limit, .worker) ∈ s.timers ∨ (limit ≤ s.clock ∧ .worker ∈ s.ready)

/-- The link is held by that party in a session, and by no other. -/
structure HeldBy (s : Session σ) (h : Holder) : Prop where
  home : s.hub.connection.linkHome = h.isHome
  worker : s.worker = h.worker?
  calls : ∀ n, s.Polls n ↔ h = .call n
  armed : s.Armed h

/-- what a session shows of a lease, apart from the holder -/
structure Sees (o : Connection.Options) (s : Session σ) (l : Lease) : Prop where
  options : s.hub.connection.options = o
  status : s.hub.connection.status = l.status
  stopping : s.hub.connection.stopping = l.stopping
  queue : s.link = l.queue
  clock : s.clock = l.clock
  log : entries s.history = l.log

/-- a session shows a lease -/
structure Shows (o : Connection.Options) (s : Session σ) (l : Lease) : Prop extends Sees o s l where
  held : s.HeldBy l.holder

/-- From one session to another entries are made, and the connection becomes another one.  The same
party holds the link as before, and what wakes the worker still does. -/
structure Passes (c : Connection) (es : List Entry) (s s' : Session σ) : Prop where
  connection : s'.hub.connection = c
  worker : s'.worker = s.worker
  calls : ∀ n, s'.Polls n ↔ s.Polls n
  link : s'.link = s.link
  clock : s'.clock = s.clock
  entries : entries s'.history = (es.map fun e => (s.clock, e)).reverse ++ entries s.history
  alarms : ∀ time, (time, .worker) ∈ s.timers → (time, .worker) ∈ s'.timers
  ready : .worker ∈ s.ready → .worker ∈ s'.ready

/-- From one session to another nothing happens that concerns the link. -/
abbrev Aside (s s' : Session σ) : Prop := Passes s.hub.connection [] s s'

theorem polls_of_task {s : Session σ} {n : Nat} {t : Task} (ht : s.task? n = some t) :
    s.Polls n ↔ t.stage = .polling := by
  constructor
  · rintro ⟨u, hu, hstage⟩
    obtain rfl : t = u := Option.some.inj (ht.symm.trans hu)
    exact hstage
  · exact fun hstage => ⟨t, ht, hstage⟩

namespace Passes

variable {s s' s'' : Session σ} {c c' : Connection} {es es' : List Entry}

theorem refl (s : Session σ) : Aside s s :=
  ⟨rfl, rfl, fun _ => Iff.rfl, rfl, rfl, rfl, fun _ h => h, id⟩

theorem trans (h : Passes c es s s') (h' : Passes c' es' s' s'') : Passes c' (es ++ es') s s'' where
  connection := h'.connection
  worker := h'.worker.trans h.worker
  calls n := (h'.calls n).trans (h.calls n)
  link := h'.link.trans h.link
  clock := h'.clock.trans h.clock
  entries := by
    rw [h'.entries, h.entries, h.clock, List.map_append, List.reverse_append, List.append_assoc]
  alarms time ht := h'.alarms time (h.alarms time ht)
  ready hr := h'.ready (h.ready hr)

theorem aside (h : Passes c es s s') (h' : Aside s' s'') : Passes c es s s'' := by
  have hboth := h.trans h'
  rw [h.connection, List.append_nil] at hboth
  exact hboth

theorem aside_trans (h : Aside s s') (h' : Aside s' s'') : Aside s s'' := h.aside h'

theorem after_aside (h : Aside s s') (h' : Passes c es s' s'') : Passes c es s s'' := h.trans h'

theorem of_eq (hc : s'.hub.connection = s.hub.connection) (hw : s'.worker = s.worker)
    (ht : s'.task? = s.task?) (hl : s'.link = s.link) (hclock : s'.clock = s.clock)
    (hh : s'.history = s.history) (hta : s'.timers = s.timers) (hr : s'.ready = s.ready) :
    Aside s s' where
  connection := hc
  worker := hw
  calls n := by
    unfold Polls
    rw [ht]
  link := hl
  clock := hclock
  entries := by rw [hh]; rfl
  alarms time h := hta ▸ h
  ready h := hr ▸ h

section
variable (s : Session σ)

theorem note {h : Happening} {entry : Entry} (he : h.logged? = some entry) :
    Passes s.hub.connection [entry] s (s.note h) where
  connection := rfl
  worker := rfl
  calls _ := Iff.rfl
  link := rfl
  clock := rfl
  entries := entries_cons_some s.history he
  alarms _ ht := ht
  ready hr := hr

theorem note_aside {h : Happening} (he : h.logged? = none) : Aside s (s.note h) where
  connection := rfl
  worker := rfl
  calls _ := Iff.rfl
  link := rfl
  clock := rfl
  entries := entries_cons_none s.history he
  alarms _ ht := ht
  ready hr := hr

theorem wake (p : Party) : Aside s (s.wake p) := by
  unfold Session.wake
  split
  · exact refl s
  · exact {
      connection := rfl
      worker := rfl
      calls := fun _ => Iff.rfl
      link := rfl
      clock := rfl
      entries := rfl
      alarms := fun _ ht => ht
      ready := fun hr => List.mem_append_left _ hr }

theorem wakeTasks (p : Stage → Bool) : Aside s (s.wakeTasks p) := by
  unfold Session.wakeTasks
  generalize s.tasks.filter (fun e => p e.2.stage) = ts
  induction ts generalizing s with
  | nil => exact refl s
  | cons e ts ih => exact (wake s (.task e.1)).aside_trans (ih (s.wake (.task e.1)))

theorem alarm (time : Nat) (p : Party) : Aside s (s.alarm time p) where
  connection := rfl
  worker := rfl
  calls _ := Iff.rfl
  link := rfl
  clock := rfl
  entries := rfl
  alarms _ ht := List.mem_append_left _ ht
  ready hr := hr

theorem task?_put (n m : Nat) (t : Task) :
    (s.put n t).task? m = if m = n then (s.task? n).map fun _ => t else s.task? m :=
  lookup_map_put s.tasks n m t

theorem task?_remove (n m : Nat) :
    (s.remove n).task? m = if m = n then none else s.task? m := lookup_filter_ne s.tasks n m

theorem put {n : Nat} (hn : ¬ s.Polls n) {t : Task} (ht : t.stage ≠ .polling) :
    Aside s (s.put n t) where
  connection := rfl
  worker := rfl
  calls m := by
    unfold Polls
    rw [task?_put]
    by_cases hm : m = n
    · subst hm
      rw [if_pos rfl]
      refine iff_of_false ?_ hn
      rintro ⟨u, hu, hstage⟩
      obtain ⟨_, -, rfl⟩ := Option.map_eq_some_iff.mp hu
      exact ht hstage
    · rw [if_neg hm]
  link := rfl
  clock := rfl
  entries := rfl
  alarms _ ht := ht
  ready hr := hr

theorem remove {n : Nat} (hn : ¬ s.Polls n) : Aside s (s.remove n) where
  connection := rfl
  worker := rfl
  calls m := by
    unfold Polls
    rw [task?_remove]
    by_cases hm : m = n
    · subst hm
      rw [if_pos rfl]
      exact iff_of_false (fun ⟨_, hu, _⟩ => by cases hu) hn
    · rw [if_neg hm]
  link := rfl
  clock := rfl
  entries := rfl
  alarms _ ht := List.mem_filter.mpr ⟨ht, by simp⟩
  ready hr := List.mem_filter.mpr ⟨hr, by simp⟩

theorem finish {n : Nat} (hn : ¬ s.Polls n) {r : Result} {entry : Entry}
    (he : (Happening.ended n r).logged? = some entry) :
    Passes s.hub.connection [entry] s (s.finish n r) := (remove s hn).trans (note (s.remove n) he)

theorem finish_aside {n : Nat} (hn : ¬ s.Polls n) {r : Result}
    (he : (Happening.ended n r).logged? = none) : Aside s (s.finish n r) :=
  (remove s hn).aside_trans (note_aside _ he)

end

/-! ## Effects of the connection -/

def effectEntries (o : Connection.Options) : Connection.Effect → List Entry
  | .deliver .. => []
  | .subscribe => Lease.passEntries o
  | .become s => [.became s]

section
variable (x : Surroundings σ)

theorem receive (s : Session σ) (topic : String) (payload : List UInt8) :
    Aside s (s.receive x topic payload) := by
  have hconnection := Hub.onMessage_connection x.sink x.now s.hub topic payload
  unfold Session.receive
  generalize s.hub.onMessage x.sink x.now topic payload = r at hconnection ⊢
  obtain ⟨h, outcome⟩ := r
  have hhub : Aside s { s with hub := h } := of_eq hconnection rfl rfl rfl rfl rfl rfl rfl
  have hnoted : Aside s ({ s with hub := h }.note (.received topic payload outcome)) :=
    hhub.aside_trans (note_aside { s with hub := h } rfl)
  simp only
  generalize { s with hub := h }.note (.received topic payload outcome) = s' at hnoted ⊢
  split
  · exact hnoted.aside_trans ((note_aside s' rfl).aside_trans (wakeTasks _ _))
  · exact hnoted

theorem subscribe (topics : List (String × Nat)) (qos : Qos) (s : Session σ) :
    Passes s.hub.connection (topics.map fun _ => .asked) s (topics.foldl (fun s e =>
      s.note (.subscribed e.1 qos (s.client.subscribe e.2 e.1))) s) := by
  induction topics generalizing s with
  | nil => exact refl s
  | cons e topics ih =>
    have hnote := note s (h := .subscribed e.1 qos (s.client.subscribe e.2 e.1)) rfl
    exact hnote.trans (ih (s.note _))

theorem perform (s : Session σ) (e : Connection.Effect) :
    Passes (s.perform x e).hub.connection (effectEntries s.hub.connection.options e) s
      (s.perform x e) ∧
    (s.perform x e).hub.connection.options = s.hub.connection.options := by
  cases e with
  | deliver topic payload =>
    have hreceived := receive x s topic payload
    show Passes (s.receive x topic payload).hub.connection [] s (s.receive x topic payload) ∧
      (s.receive x topic payload).hub.connection.options = _
    rw [hreceived.connection]
    exact ⟨hreceived, rfl⟩
  | subscribe =>
    have hasked := subscribe s.hub.connection.options.subscriptions.zipIdx
      s.hub.connection.options.subscribeQos s
    have hentries : s.hub.connection.options.subscriptions.zipIdx.map (fun _ => Entry.asked) =
        Lease.passEntries s.hub.connection.options := by
      unfold Lease.passEntries
      rw [List.map_const', List.map_const', List.length_zipIdx]
    rw [hentries] at hasked
    exact ⟨hasked.connection.symm ▸ hasked, congrArg Connection.options hasked.connection⟩
  | become new =>
    exact ⟨⟨rfl, rfl, fun _ => Iff.rfl, rfl, rfl, rfl, fun _ h => h, id⟩, rfl⟩

theorem performAll (s : Session σ) (es : List Connection.Effect) (c : Connection) :
    Passes c (es.flatMap (effectEntries s.hub.connection.options)) s (s.performAll x es c) := by
  have heffects (s : Session σ) : ∃ c',
      Passes c' (es.flatMap (effectEntries s.hub.connection.options)) s (es.foldl (Session.perform x) s) := by
    induction es generalizing s with
    | nil => exact ⟨_, refl s⟩
    | cons e es ih =>
      obtain ⟨hperform, hoptions⟩ := perform x s e
      obtain ⟨c', hc'⟩ := ih (Session.perform x s e)
      rw [hoptions] at hc'
      exact ⟨c', hperform.trans hc'⟩
  obtain ⟨c', h⟩ := heffects s
  exact ⟨rfl, h.worker, h.calls, h.link, h.clock, h.entries, h.alarms, h.ready⟩

end

end Passes

end Session

end DeviceHub
