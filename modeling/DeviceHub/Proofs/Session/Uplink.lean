import Mathlib.Logic.Function.Basic
import DeviceHub.Proofs.Dispatcher.Outcome
import DeviceHub.Proofs.Session.Desk

/-!
# The uplink of a session: what concerns the connection

Of a session the uplink keeps who holds the broker's link, what others see of the connection, and
what goes over it in either direction.

* `Mark`, `Session.marks`   what happens to the connection, in the order in which it happens;
* `Handover`                what the publish calls of a run do: one begins, the client accepts one;
* `Uplink`, `Session.uplink`   the uplink of a session;
* `Uplink.Step`             one change, with what has to hold for it;
* `uplink_note` ... `uplink_performAll`   what the operations of a session do to its uplink.

An uplink changes in these steps only, which `Session.uplink_act` shows of every action.
-/

namespace DeviceHub

namespace Session

/-! ## Marks -/

/-- What happens to the connection: a poll of the link ends, a message is handed to the handler, the
client is asked to subscribe, others see a state, the client is asked to publish, the publish call
of a task ends, or a shutdown call ends. -/
inductive Mark
  | took (p : Polled)
  | message (topic : String) (payload : List UInt8)
  | asked (topic : String) (qos : Qos)
  | state (s : Connection.Status)
  | sent (p : Publication)
  | returned (n : Nat) (r : Except PublishError Unit)
  | stopped

def Happening.mark? : Happening → Option Mark
  | .took p => some (.took p)
  | .received topic payload _ => some (.message topic payload)
  | .subscribed topic qos _ => some (.asked topic qos)
  | .became _ new => some (.state new)
  | .published p _ => some (.sent p)
  | .handed n r => some (.returned n r)
  | .ended n (.published r) => some (.returned n r)
  | .ended _ .stopped => some .stopped
  | _ => none

namespace Mark

def polled? : Mark → Option Polled
  | .took p => some p
  | _ => none

def message? : Mark → Option (String × List UInt8)
  | .message topic payload => some (topic, payload)
  | _ => none

def asked? : Mark → Option (String × Qos)
  | .asked topic qos => some (topic, qos)
  | _ => none

def state? : Mark → Option Connection.Status
  | .state s => some s
  | _ => none

def sent? : Mark → Option Publication
  | .sent p => some p
  | _ => none

def returned? : Mark → Option (Nat × Except PublishError Unit)
  | .returned n r => some (n, r)
  | _ => none

end Mark

def polls (ms : List Mark) : List Polled := ms.filterMap Mark.polled?

def messages (ms : List Mark) : List (String × List UInt8) := ms.filterMap Mark.message?

def subscriptions (ms : List Mark) : List (String × Qos) := ms.filterMap Mark.asked?

/-- the states that others could see of a connection that was not connected yet -/
def states (ms : List Mark) : List Connection.Status := .disconnected :: ms.filterMap Mark.state?

def sent (ms : List Mark) : List Publication := ms.filterMap Mark.sent?

/-- how publish calls ended, each with its task -/
def returns (ms : List Mark) : List (Nat × Except PublishError Unit) := ms.filterMap Mark.returned?

/-- what the publish calls of a run do -/
inductive Handover
  /-- the publish call of a task begins, and the connection stands or not -/
  | begun (n : Nat) (p : Publication) (stands : Bool)
  /-- the client accepts what the publish call of a task asks of it -/
  | accepted (n : Nat)

/-! ## Uplinks -/

/-- how far a task is with the connection -/
inductive Stand
  | fresh (job : Job)
  | polling
  | joining
  | handing
  | racing

/-- what a stage means for the connection -/
def Stage.stand : Stage → Stand
  | .fresh job => .fresh job
  | .polling => .polling
  | .joining => .joining
  | .handing .. => .handing
  | .racing .. => .racing

def effectMarks (o : Connection.Options) : Connection.Effect → List Mark
  | .deliver topic payload => [.message topic payload]
  | .subscribe => o.subscriptions.map fun topic => .asked topic o.subscribeQos
  | .become s => [.state s]

/-- What concerns the connection: its state, its worker, how far the tasks are, how many of them
were started, the marks, and what publish calls did. -/
structure Uplink where
  connection : Connection
  worker : Option (Connection.Worker × WorkerStage)
  stand? : Nat → Option Stand
  started : Nat
  marks : List Mark
  log : List Handover

/-- how far the worker is after a poll; while it pauses it does not poll -/
def stageAfter (w : Connection.Worker) (limit : Nat) : WorkerStage :=
  match w.point with
  | .pausing _ => .resting limit
  | _ => .polling

namespace Uplink

def mark (u : Uplink) (ms : List Mark) : Uplink := { u with marks := u.marks ++ ms }

def record (u : Uplink) (hs : List Handover) : Uplink := { u with log := u.log ++ hs }

def put (u : Uplink) (n : Nat) (st : Stand) : Uplink :=
  { u with stand? := Function.update u.stand? n (some st) }

def leave (u : Uplink) (n : Nat) : Uplink :=
  { u with stand? := Function.update u.stand? n none }

def start (u : Uplink) (job : Job) : Uplink :=
  { u with
    started := u.started + 1
    stand? := fun m => (u.stand? m).or (if m = u.started + 1 then some (.fresh job) else none) }

def employ (u : Uplink) (w : Connection.Worker) (st : WorkerStage) : Uplink :=
  { u with worker := some (w, st) }

def perform (u : Uplink) (es : List Connection.Effect) (c : Connection) : Uplink :=
  { u with connection := c, marks := u.marks ++ es.flatMap (effectMarks u.connection.options) }

/-- a poll ends, with its effects -/
def take (u : Uplink) (p : Polled) (es : List Connection.Effect) (c : Connection) : Uplink :=
  (u.mark [.took p]).perform es c

/-- a connect call is at a point now: it polls on, or ends -/
def reach (u : Uplink) (n : Nat) : Connection.ConnectPoint → Uplink
  | .polling => u
  | .connected => (u.employ u.connection.worker .fresh).leave n
  | .failed _ => u.leave n

/-- a poll of a connect call ends -/
def connectTook (u : Uplink) (n : Nat) (p : Polled) : Uplink :=
  let r := u.connection.connectPolled p
  (u.take p r.2.1 r.1).reach n r.2.2

/-- a poll of the worker ends -/
def workerTook (u : Uplink) (w : Connection.Worker) (p : Polled) (limit : Nat) : Uplink :=
  let r := u.connection.workerPolled w p
  (u.take p r.2.1 r.1).employ r.2.2 (stageAfter r.2.2 limit)

/-- the worker ends -/
def dismiss (u : Uplink) : Uplink :=
  let r := u.connection.workerStopped
  { u.perform r.2 r.1 with worker := none }

/-- a shutdown call starts -/
def request (u : Uplink) (n : Nat) : Uplink :=
  { u with connection := u.connection.beginShutdown.1 }.put n .joining

/-- a shutdown call ends -/
def finish (u : Uplink) (n : Nat) : Uplink :=
  let r := u.connection.finishShutdown
  ((u.perform r.2 r.1).leave n).mark [.stopped]

/-- the publish call of a task begins -/
def begin (u : Uplink) (n : Nat) (p : Publication) : Uplink :=
  u.record [.begun n p u.connection.isConnected]

/-- One change of an uplink.  Messages may come from elsewhere than the link only if `direct` says
so. -/
inductive Step (direct : Prop) : Uplink → Uplink → Prop
  /-- a task is started -/
  | start (u job) : Step direct u (u.start job)
  /-- a task is gone -/
  | leave (u n) : Step direct u (u.leave n)
  /-- a message comes from elsewhere -/
  | message (u topic payload) (h : direct) : Step direct u (u.mark [.message topic payload])
  /-- a connect call gets the link -/
  | connect (u n c es) (hn : u.stand? n = some (.fresh .connect))
      (hc : u.connection.connect = .ok (c, es)) : Step direct u ((u.perform es c).put n .polling)
  /-- a poll of a connect call ends -/
  | connectTook (u n p) (hn : u.stand? n = some .polling) : Step direct u (u.connectTook n p)
  /-- the worker polls for the first time -/
  | wake (u w) (hw : u.worker = some (w, .fresh)) (hs : u.connection.stopping = false) :
      Step direct u (u.employ w .polling)
  /-- a poll of the worker ends -/
  | workerTook (u w p limit) (hw : u.worker = some (w, .polling))
      (hs : u.connection.stopping = false) : Step direct u (u.workerTook w p limit)
  /-- the pause of the worker ends -/
  | rest (u w limit) (hw : u.worker = some (w, .resting limit))
      (hs : u.connection.stopping = false) :
      Step direct u (u.employ (Connection.workerRested w) .polling)
  /-- the worker ends -/
  | dismiss (u) (hs : u.connection.stopping = true) : Step direct u u.dismiss
  /-- a shutdown call starts -/
  | request (u n) (hn : u.stand? n = some (.fresh .shutdown)) : Step direct u (u.request n)
  /-- a shutdown call ends -/
  | finish (u n) (hn : u.stand? n = some .joining) : Step direct u (u.finish n)
  /-- the publish call of a task begins, and the connection does not stand -/
  | refuse (u n job p) (hn : u.stand? n = some (.fresh job))
      (hc : u.connection.isConnected = false) :
      Step direct u (((u.begin n p).mark [.returned n (.error .notConnected)]).leave n)
  /-- the publish call of a task begins, and the client is asked -/
  | ask (u n job p) (hn : u.stand? n = some (.fresh job)) (hc : u.connection.isConnected = true) :
      Step direct u (((u.begin n p).mark [.sent p]).put n .handing)
  /-- the client accepts what a publish call asks of it -/
  | accept (u n) (hn : u.stand? n = some .handing) :
      Step direct u (((u.record [.accepted n]).mark [.returned n (.ok ())]).put n .racing)
  /-- the publish call of a task fails -/
  | reject (u n e) (hn : u.stand? n = some .handing) (he : e ≠ .notConnected) :
      Step direct u ((u.mark [.returned n (.error e)]).leave n)

abbrev Steps (direct : Prop) : Uplink → Uplink → Prop := Relation.ReflTransGen (Step direct)

theorem mark_nil (u : Uplink) : u.mark [] = u :=
  congrArg (Uplink.mk _ _ _ _ · _) (List.append_nil u.marks)

theorem mark_mark (u : Uplink) (ms ms' : List Mark) :
    (u.mark ms).mark ms' = u.mark (ms ++ ms') :=
  congrArg (Uplink.mk _ _ _ _ · _) (List.append_assoc u.marks ms ms')

theorem put_put (u : Uplink) (n : Nat) (st st' : Stand) : (u.put n st).put n st' = u.put n st' :=
  congrArg (Uplink.mk _ _ · _ _ _) (Function.update_idem _ _ u.stand?)

theorem put_leave (u : Uplink) (n : Nat) (st : Stand) : (u.put n st).leave n = u.leave n :=
  congrArg (Uplink.mk _ _ · _ _ _) (Function.update_idem _ _ u.stand?)

theorem put_finish (u : Uplink) (n : Nat) (st : Stand) : (u.put n st).finish n = u.finish n := by
  let r := u.connection.finishShutdown
  show (((u.perform r.2 r.1).put n st).leave n).mark [.stopped] = _
  rw [put_leave]
  rfl

section
variable {u : Uplink} {n m : Nat} {st st' : Stand} {job : Job}

theorem stand?_of_put (h : (u.put n st).stand? m = some st') (hne : st ≠ st') :
    u.stand? m = some st' := by
  have h : Function.update u.stand? n (some st) m = some st' := h
  rw [Function.update_apply] at h
  split at h
  · exact absurd (Option.some.inj h) hne
  · exact h

theorem stand?_of_leave (h : (u.leave n).stand? m = some st) : u.stand? m = some st ∧ m ≠ n := by
  have h : Function.update u.stand? n none m = some st := h
  rw [Function.update_apply] at h
  split at h
  · cases h
  · rename_i hm
    exact ⟨h, hm⟩

theorem stand?_of_start (h : (u.start job).stand? m = some st) (hne : st ≠ .fresh job) :
    u.stand? m = some st := by
  have h : (u.stand? m).or (if m = u.started + 1 then some (.fresh job) else none) = some st := h
  cases hm : u.stand? m with
  | some st' =>
    rw [hm] at h
    exact h
  | none =>
    rw [hm, Option.none_or] at h
    split at h
    · exact absurd (Option.some.inj h).symm hne
    · cases h

end

theorem put_eq_self {u : Uplink} {n : Nat} {st : Stand} (h : u.stand? n = some st) :
    u.put n st = u := by
  unfold put
  rw [← h, Function.update_eq_self]

theorem put_stand?_self (u : Uplink) (n : Nat) (st : Stand) : (u.put n st).stand? n = some st :=
  Function.update_self n _ u.stand?

end Uplink

end Session

/-! ## The uplink of a session -/

namespace Session

variable {σ : Type}

/-- what happened to the connection, the first of it first -/
def marks (s : Session σ) : List Mark := (s.history.filterMap (·.2.mark?)).reverse

/-- the uplink of a session in a run whose publish calls did something -/
def uplink (s : Session σ) (log : List Handover) : Uplink :=
  ⟨s.hub.connection, s.worker, fun n => (s.task? n).map (·.stage.stand), s.started, s.marks, log⟩

section
variable (s : Session σ) (log : List Handover)

theorem marks_note (h : Happening) : (s.note h).marks = s.marks ++ h.mark?.toList := by
  unfold marks
  cases hm : h.mark? with
  | none =>
    rw [show (s.note h).history.filterMap (·.2.mark?) = s.history.filterMap (·.2.mark?) from
      List.filterMap_cons_none hm, Option.toList_none, List.append_nil]
  | some m =>
    rw [show (s.note h).history.filterMap (·.2.mark?) = m :: s.history.filterMap (·.2.mark?) from
      List.filterMap_cons_some hm, List.reverse_cons, Option.toList_some]

theorem uplink_note (h : Happening) :
    (s.note h).uplink log = (s.uplink log).mark h.mark?.toList :=
  congrArg (Uplink.mk _ _ _ _ · _) (marks_note s h)

theorem uplink_note_none {h : Happening} (hm : h.mark? = none) :
    (s.note h).uplink log = s.uplink log := by
  rw [uplink_note, hm]
  exact Uplink.mark_nil _

theorem uplink_wake (p : Party) : (s.wake p).uplink log = s.uplink log := by
  unfold wake
  split <;> rfl

theorem uplink_wakeIf (b : Bool) (p : Party) :
    (if b then s.wake p else s).uplink log = s.uplink log := by
  split
  · exact uplink_wake s log p
  · rfl

theorem uplink_wakeTasks (p : Stage → Bool) : (s.wakeTasks p).uplink log = s.uplink log := by
  unfold wakeTasks
  generalize s.tasks.filter (fun e => p e.2.stage) = ts
  induction ts generalizing s with
  | nil => rfl
  | cons e ts ih => exact (ih (s.wake (.task e.1))).trans (uplink_wake s log _)

theorem uplink_put {n : Nat} {t₀ : Task} (ht : s.task? n = some t₀) (t : Task) :
    (s.put n t).uplink log = (s.uplink log).put n t.stage.stand := by
  have hstands : (fun m => ((s.put n t).task? m).map (·.stage.stand)) =
      Function.update (s.uplink log).stand? n (some t.stage.stand) := by
    funext m
    show ((s.put n t).tasks.lookup m).map _ = _
    rw [show (s.put n t).tasks.lookup m = _ from lookup_map_put s.tasks n m t,
      Function.update_apply]
    split
    · rw [show s.tasks.lookup n = some t₀ from ht]
      rfl
    · rfl
  exact congrArg (Uplink.mk _ _ · _ _ _) hstands

theorem uplink_register {n : Nat} {t₀ : Task} (ht : s.task? n = some t₀) (t : Task)
    (send : Command.Send) (c : Message.Command) :
    (s.register n t send c).uplink log = (s.uplink log).put n t.stage.stand := by
  unfold register
  refine (uplink_put (Session.note _ (.registered n send c)) log (by exact ht) t).trans ?_
  rw [uplink_note_none _ _ rfl]
  rfl

theorem uplink_remove (n : Nat) : (s.remove n).uplink log = (s.uplink log).leave n := by
  have hstands : (fun m => ((s.remove n).task? m).map (·.stage.stand)) =
      Function.update (s.uplink log).stand? n none := by
    funext m
    show ((s.remove n).tasks.lookup m).map _ = _
    rw [show (s.remove n).tasks.lookup m = _ from lookup_filter_ne s.tasks n m,
      Function.update_apply]
    split <;> rfl
  exact congrArg (Uplink.mk _ _ · _ _ _) hstands

theorem uplink_finish (n : Nat) (r : Result) : (s.finish n r).uplink log =
    ((s.uplink log).leave n).mark (Happening.ended n r).mark?.toList := by
  unfold finish
  rw [uplink_note, uplink_remove]

theorem uplink_finish_none {n : Nat} {r : Result} (hr : (Happening.ended n r).mark? = none) :
    (s.finish n r).uplink log = (s.uplink log).leave n := by
  rw [uplink_finish, hr]
  exact Uplink.mark_nil _

theorem uplink_start (job : Job) (token : Option Bool) :
    (s.start job token).uplink log = (s.uplink log).start job := by
  unfold start
  rw [uplink_wake]
  refine congrArg (Uplink.mk _ _ · _ _ _) (funext fun m => ?_)
  show (List.lookup m (s.tasks ++ [_])).map _ =
    ((s.task? m).map _).or (if m = s.started + 1 then some (Stand.fresh job) else none)
  rw [lookup_append_one, show s.tasks.lookup m = s.task? m from rfl]
  cases s.task? m with
  | some t => rfl
  | none => by_cases hm : m = s.started + 1 <;> simp [hm, Stage.stand]

end

/-! ## Effects -/

section
variable (x : Surroundings σ) (s : Session σ) (log : List Handover)

theorem uplink_receive (topic : String) (payload : List UInt8) :
    (s.receive x topic payload).uplink log = (s.uplink log).mark [.message topic payload] := by
  have hc := Hub.onMessage_connection x.sink x.now s.hub topic payload
  unfold receive
  generalize s.hub.onMessage x.sink x.now topic payload = r at hc ⊢
  obtain ⟨h, o⟩ := r
  have hreceived : ({ s with hub := h }.note (.received topic payload o)).uplink log =
      (s.uplink log).mark [.message topic payload] := by
    rw [uplink_note]
    exact congrArg (fun c => Uplink.mark ⟨c, _, _, _, _, _⟩ _) hc
  rcases o with (_ | a) | why
  · exact hreceived
  · show (wakeSends _ a.id).uplink log = _
    unfold wakeSends
    rw [uplink_wakeTasks, uplink_note_none _ _ rfl]
    exact hreceived
  · exact hreceived

theorem uplink_notes {α : Type} (f : Session σ → α → Happening) (g : α → Mark)
    (hf : ∀ s a, (f s a).mark? = some (g a)) (as : List α) :
    (as.foldl (fun s a => s.note (f s a)) s).uplink log = (s.uplink log).mark (as.map g) := by
  induction as generalizing s with
  | nil => exact (Uplink.mark_nil _).symm
  | cons a as ih =>
    rw [List.foldl_cons, ih, uplink_note, hf, Uplink.mark_mark]
    rfl

theorem uplink_perform (e : Connection.Effect) : ∃ status,
    (s.perform x e).uplink log =
      (s.uplink log).perform [e] { s.hub.connection with status := status } := by
  cases e with
  | deliver topic payload => exact ⟨_, uplink_receive x s log topic payload⟩
  | subscribe =>
    let o := s.hub.connection.options
    let asked (topic : String) : Mark := .asked topic o.subscribeQos
    have htopics : o.subscriptions.zipIdx.map (asked ∘ Prod.fst) =
        [Connection.Effect.subscribe].flatMap (effectMarks o) := by
      rw [← List.map_map, List.zipIdx_map_fst, List.flatMap_singleton]
      rfl
    have hnotes := uplink_notes s log
      (fun s e => .subscribed e.1 o.subscribeQos (s.client.subscribe e.2 e.1))
      (asked ∘ Prod.fst) (fun _ _ => rfl) o.subscriptions.zipIdx
    rw [htopics] at hnotes
    exact ⟨s.hub.connection.status, hnotes⟩
  | become new => exact ⟨new, uplink_note _ log _⟩

theorem uplink_performAll (es : List Connection.Effect) (c : Connection) :
    (s.performAll x es c).uplink log = (s.uplink log).perform es c := by
  suffices h : ∃ d, (es.foldl (perform x) s).uplink log = (s.uplink log).perform es d by
    obtain ⟨d, h⟩ := h
    exact congrArg (fun u : Uplink => { u with connection := c }) h
  induction es generalizing s with
  | nil => exact ⟨s.hub.connection, (Uplink.mark_nil _).symm⟩
  | cons e es ih =>
    obtain ⟨status, he⟩ := uplink_perform x s log e
    obtain ⟨d, hes⟩ := ih (s.perform x e)
    let f := effectMarks s.hub.connection.options
    have hmarks : s.marks ++ [e].flatMap f ++ es.flatMap f = s.marks ++ (e :: es).flatMap f := by
      rw [List.append_assoc, ← List.flatMap_append, List.singleton_append]
    refine ⟨d, hes.trans ?_⟩
    rw [he]
    exact congrArg (Uplink.mk _ _ _ _ · _) hmarks

theorem uplink_polled (p : Polled) (rest : List Polled) (es : List Connection.Effect)
    (c : Connection) :
    (({ s with link := rest }.note (.took p)).performAll x es c).uplink log =
      (s.uplink log).take p es c := by
  rw [uplink_performAll, uplink_note]
  rfl

theorem uplink_spawnWorker :
    s.spawnWorker.uplink log = (s.uplink log).employ s.hub.connection.worker .fresh := by
  unfold spawnWorker
  rw [uplink_wake]
  rfl

end

end Session

end DeviceHub
