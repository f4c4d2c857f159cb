import DeviceHub.Proofs.Session.History

/-!
# The desk of a session: what concerns commands

A session holds much that no send depends on.  Its desk is the rest: the slots, the tasks, the
counters and the history.

* `Desk`, `Session.desk`   the desk of a session;
* `Desk.note`, `Desk.put`, `Desk.remove`, `Desk.register`, `Desk.resolve`, `Desk.fail`,
  `Desk.deliver`   how a desk changes;
* `Desk.Step`     one change, with what has to hold for it;
* `desk_note` ... `desk_wakeSends`   what the operations of a session do to its desk.

A desk changes in these steps only, which `Session.steps_act` shows of every action.
-/

namespace DeviceHub.Session

/-- how a task ends whose send has a result: with the result, or with the response to it -/
def Result.Shows (q : Result) (r : Except Command.Error Message.Ack) : Prop :=
  q = .sent r ∨ q = .responded (Service.sent r)

/-- what concerns commands: the slots, the tasks, how many of them were started, how many commands
were given an id, and the history -/
structure Desk where
  pending : Command.Pending
  task? : Nat → Option Task
  started : Nat
  commands : Nat
  history : History

namespace Desk

def note (d : Desk) (time : Nat) (h : Happening) : Desk :=
  { d with history := (time, h) :: d.history }

def put (d : Desk) (n : Nat) (t : Task) : Desk :=
  { d with task? := fun m => if m = n then (d.task? n).map fun _ => t else d.task? m }

def send? (d : Desk) (n : Nat) : Option Command.Send := (d.task? n).bind Task.send?

def start (d : Desk) (t : Task) : Desk :=
  { d with
    started := d.started + 1
    task? := fun m => (d.task? m).or (if m = d.started + 1 then some t else none) }

/-- a task is gone, and its send is not pending -/
def remove (d : Desk) (n : Nat) : Desk :=
  { d with
    pending :=
      match d.send? n with
      | some send => d.pending.remove send.id
      | none => d.pending
    task? := fun m => if m = n then none else d.task? m }

/-- the send of a task is registered; the task holds it from now on -/
def register (d : Desk) (n : Nat) (t : Task) (send : Command.Send) (c : Message.Command)
    (time : Nat) : Desk :=
  ({ d with pending := d.pending.register send.id, commands := d.commands + 1 }.note time
    (.registered n send c)).put n t

/-- the send of a task ends with a result, and the task with it -/
def resolve (d : Desk) (n : Nat) (r : Except Command.Error Message.Ack) (q : Result) (time : Nat) :
    Desk :=
  ((d.note time (.resolved n r)).remove n).note time (.ended n q)

def fail (d : Desk) (n : Nat) (e : PublishError) (q : Result) (time : Nat) : Desk :=
  (d.note time (.handed n (.error e))).resolve n (.error (.ofPublish e)) q time

def acknowledge (d : Desk) (a : Message.Ack) (time : Nat) : Desk :=
  { d with pending := d.pending.acknowledge a }.note time (.acknowledged a)

/-- a message that is an acknowledgement reaches the dispatcher, which forwards it -/
def deliver (d : Desk) (topic : String) (payload : List UInt8) (a : Message.Ack) (time : Nat) :
    Desk :=
  ({ d with pending := d.pending.acknowledge a }.note time
    (.received topic payload (.taken (some a)))).note time (.acknowledged a)

/-- One change of a desk.  `ids` gives the commands their ids, and acknowledgements may come from
elsewhere than the dispatcher only if `direct` says so. -/
inductive Step (ids : Nat → String) (direct : Prop) : Desk → Desk → Prop
  /-- something happens that concerns no send -/
  | note (d time h) (hq : h.isQuiet = true) : Step ids direct d (d.note time h)
  /-- a task is started -/
  | start (d t) (ht : t.send? = none) : Step ids direct d (d.start t)
  /-- a task goes on, and its send does not change -/
  | put (d n t t') (ht : d.task? n = some t) (hs : t'.send? = t.send?) :
      Step ids direct d (d.put n t')
  /-- a task without a send is gone -/
  | close (d n) (hs : d.send? n = none) : Step ids direct d (d.remove n)
  /-- a request is refused -/
  | refuse (d n t msg q time) (ht : d.task? n = some t) (hs : t.send? = none)
      (hq : q.Shows (.error (.invalidRequest msg))) :
      Step ids direct d (d.resolve n (.error (.invalidRequest msg)) q time)
  /-- a send is registered, and the client is asked to publish its command -/
  | register (d n t t' send c time) (ht : d.task? n = some t) (hs : t.send? = none)
      (hs' : t'.send? = some send) (hid : send.id = ids d.commands) (hc : c.id = send.id)
      (hd : c.device = send.device) : Step ids direct d ((d.register n t' send c time).note time
        (.published (Command.publication c) (some send.id)))
  /-- a send is registered, and the connection does not stand -/
  | bounce (d n t t' send c e q time) (ht : d.task? n = some t) (hs : t.send? = none)
      (hs' : t'.send? = some send) (hid : send.id = ids d.commands) (hc : c.id = send.id)
      (hd : c.device = send.device) (hq : q.Shows (.error (.ofPublish e))) :
      Step ids direct d ((d.register n t' send c time).fail n e q time)
  /-- an acknowledgement comes from elsewhere -/
  | acknowledge (d a time) (h : direct) : Step ids direct d (d.acknowledge a time)
  /-- an acknowledgement comes from the dispatcher -/
  | deliver (d topic payload e a time) (h : Inbound.read topic payload = .ok (.ack e a)) :
      Step ids direct d (d.deliver topic payload a time)
  /-- the publish call of a send succeeds -/
  | hand (d n t t' send time) (ht : d.task? n = some t) (hs : t.send? = some send)
      (hs' : t'.send? = some send) :
      Step ids direct d ((d.note time (.handed n (.ok ()))).put n t')
  /-- the publish call of a send fails -/
  | fail (d n t send e q time) (ht : d.task? n = some t) (hs : t.send? = some send)
      (hq : q.Shows (.error (.ofPublish e))) : Step ids direct d (d.fail n e q time)
  /-- a send looks how its race stands, and waits on -/
  | look (d n t send cancelled expired now time) (ht : d.task? n = some t)
      (hs : t.send? = some send)
      (hr : send.race cancelled (d.pending.received? send.id) expired now = none) :
      Step ids direct d (d.note time (.looked n cancelled expired now))
  /-- a send looks how its race stands, and ends -/
  | settle (d n t send cancelled expired now r q time) (ht : d.task? n = some t)
      (hs : t.send? = some send)
      (hr : send.race cancelled (d.pending.received? send.id) expired now = some r)
      (hq : q.Shows r) :
      Step ids direct d ((d.note time (.looked n cancelled expired now)).resolve n r q time)
  /-- the caller of a task gives it up -/
  | drop (d n t time) (ht : d.task? n = some t) :
      Step ids direct d ((d.remove n).note time (.dropped n))

abbrev Steps (ids : Nat → String) (direct : Prop) : Desk → Desk → Prop :=
  Relation.ReflTransGen (Step ids direct)

end Desk

variable {σ : Type}

def desk (s : Session σ) : Desk := ⟨s.hub.pending, s.task?, s.started, s.commands, s.history⟩

/-! ## Tasks by their numbers -/

theorem lookup_cons_ite (k m : Nat) (t : Task) (ts : List (Nat × Task)) :
    ((k, t) :: ts).lookup m = if m = k then some t else ts.lookup m := by
  rw [List.lookup_cons]
  by_cases h : m = k
  · subst h
    rw [if_pos rfl, beq_self_eq_true]
  · rw [if_neg h, beq_false_of_ne h]

theorem lookup_map_put (ts : List (Nat × Task)) (n m : Nat) (t : Task) :
    (ts.map fun e => if e.1 = n then (n, t) else e).lookup m =
      if m = n then (ts.lookup n).map fun _ => t else ts.lookup m := by
  induction ts with
  | nil => simp
  | cons e ts ih =>
    obtain ⟨k, u⟩ := e
    rw [List.map_cons, lookup_cons_ite, lookup_cons_ite]
    by_cases hk : k = n
    · subst hk
      rw [if_pos rfl, lookup_cons_ite, ih]
      by_cases hm : m = k <;> simp [hm]
    · rw [if_neg hk, lookup_cons_ite, ih, if_neg (Ne.symm hk)]
      by_cases hm : m = k
      · rw [if_pos hm, if_pos hm, if_neg (fun h => hk (hm.symm.trans h))]
      · rw [if_neg hm, if_neg hm]

theorem lookup_filter_ne (ts : List (Nat × Task)) (n m : Nat) :
    (ts.filter (·.1 ≠ n)).lookup m = if m = n then none else ts.lookup m := by
  induction ts with
  | nil => simp
  | cons e ts ih =>
    obtain ⟨k, u⟩ := e
    rw [lookup_cons_ite]
    by_cases hk : k = n
    · rw [List.filter_cons_of_neg (by simp [hk]), ih]
      by_cases hm : m = n
      · rw [if_pos hm, if_pos hm]
      · rw [if_neg hm, if_neg hm, if_neg (fun h => hm (h.trans hk))]
    · rw [List.filter_cons_of_pos (by simp [hk]), lookup_cons_ite, ih]
      by_cases hm : m = k
      · rw [if_pos hm, if_pos hm, if_neg (fun h => hk (hm.symm.trans h))]
      · rw [if_neg hm, if_neg hm]

theorem lookup_append_one (ts : List (Nat × Task)) (k m : Nat) (t : Task) :
    (ts ++ [(k, t)]).lookup m = (ts.lookup m).or (if m = k then some t else none) := by
  rw [List.lookup_append, lookup_cons_ite]
  rfl

/-! ## Operations of a session -/

section
variable (s : Session σ)

theorem desk_note (h : Happening) : (s.note h).desk = s.desk.note s.clock h := rfl

theorem desk_wake (p : Party) : (s.wake p).desk = s.desk := by
  unfold wake
  split <;> rfl

theorem desk_put (n : Nat) (t : Task) : (s.put n t).desk = s.desk.put n t := by
  show Desk.mk _ _ _ _ _ = Desk.mk _ _ _ _ _
  congr 1
  funext m
  exact lookup_map_put s.tasks n m t

/-- a send is registered; its task holds it from now on -/
def register (n : Nat) (t : Task) (send : Command.Send) (c : Message.Command) : Session σ :=
  ({ s with
    hub := { s.hub with pending := s.hub.pending.register send.id }
    commands := s.commands + 1 }.note (.registered n send c)).put n t

theorem desk_register (n : Nat) (t : Task) (send : Command.Send) (c : Message.Command) :
    (s.register n t send c).desk = s.desk.register n t send c s.clock := desk_put _ n t

theorem desk_remove (n : Nat) : (s.remove n).desk = s.desk.remove n := by
  show Desk.mk _ _ _ _ _ = Desk.mk _ _ _ _ _
  congr 1
  funext m
  exact lookup_filter_ne s.tasks n m

theorem desk_finish (n : Nat) (r : Result) :
    (s.finish n r).desk = (s.desk.remove n).note s.clock (.ended n r) := by
  show ((s.remove n).note (.ended n r)).desk = _
  rw [desk_note, desk_remove]
  rfl

theorem desk_wakeTasks (p : Stage → Bool) : (s.wakeTasks p).desk = s.desk := by
  unfold wakeTasks
  generalize s.tasks.filter (fun e => p e.2.stage) = ts
  induction ts generalizing s with
  | nil => rfl
  | cons e ts ih => exact (ih (s.wake (.task e.1))).trans (desk_wake s _)

theorem desk_wakeSends (id : String) : (s.wakeSends id).desk = s.desk := desk_wakeTasks s _

theorem desk_start (job : Job) (token : Option Bool) :
    (s.start job token).desk = s.desk.start { stage := .fresh job, cancelled := token } := by
  unfold start
  rw [desk_wake]
  show Desk.mk _ _ _ _ _ = Desk.mk _ _ _ _ _
  congr 1
  funext m
  exact lookup_append_one s.tasks (s.started + 1) m _

theorem desk_acknowledge (a : Message.Ack) :
    (s.acknowledge a).desk = s.desk.acknowledge a s.clock := desk_wakeSends _ _

end

end DeviceHub.Session
