import DeviceHub.Hub

/-!
# Sessions: words

A session is a hub on a clock of its own, with a link and a client whose behaviour is given.

* `Job`        what a task is to do, and `Stage` how far it is;
* `Result`     how it ends;
* `Party`      who can run: a task, or the worker of the connection;
* `Client`     how the client of the broker behaves;
* `Happening`  what happens in a session;
* `Session`    the state of a session, with everything that has happened in it.
-/

namespace DeviceHub

namespace Session

/-- what a task is to do -/
inductive Job
  | connect
  | shutdown
  | send (r : Command.Request)
  | publish (p : Publication)
  | serve (r : Service.Request)

/-- how far a task is; times are in milliseconds -/
inductive Stage
  /-- nothing of it has run -/
  | fresh (job : Job)
  /-- a connect call waits for the link -/
  | polling
  /-- a shutdown call waits for the worker's end -/
  | joining
  /-- a publish call, maybe that of a send, waits for the client until its time limit -/
  | handing (send : Option Command.Send) (limit : Nat)
  /-- a send waits for its acknowledgement until its time limit -/
  | racing (send : Command.Send) (limit : Nat)

/-- A task.  `cancelled` is there when the task can be cancelled, and `served` says that its result is
the response to a request. -/
structure Task where
  stage : Stage
  cancelled : Option Bool := none
  served : Bool := false

/-- the send of a task that was registered -/
def Task.send? (t : Task) : Option Command.Send :=
  match t.stage with
  | .handing send _ => send
  | .racing send _ => some send
  | _ => none

/-- how a task ends -/
inductive Result
  | connected (r : Except TransportError Unit)
  | stopped
  | sent (r : Except Command.Error Message.Ack)
  | published (r : Except PublishError Unit)
  | responded (r : Service.Response)

/-- who can run -/
inductive Party
  | worker
  | task (n : Nat)
deriving DecidableEq

/-- how far the worker is -/
inductive WorkerStage
  | fresh
  | polling
  | resting (limit : Nat)

/-- How the client behaves: publish calls never end, or calls fail.  Of the requests to subscribe that
are made one after another each may fail by itself, by its place among them and its topic. -/
structure Client where
  stall : Bool := false
  failPublish : Option String := none
  failSubscribe : Nat → String → Option String := fun _ _ => none
  failDisconnect : Option String := none

/-- what the client answers to a publish call; a stalled call has no answer -/
def Client.publish? (c : Client) : Option (Except TransportError Unit) :=
  if c.stall then none
  else
    match c.failPublish with
    | some msg => some (.error (.publish msg))
    | none => some (.ok ())

def Client.subscribe (c : Client) (place : Nat) (topic : String) : Except TransportError Unit :=
  match c.failSubscribe place topic with
  | some msg => .error (.subscribe msg)
  | none => .ok ()

/-- what happens in a session -/
inductive Happening
  /-- the link is polled -/
  | polled
  /-- a poll of the link ends -/
  | took (p : Polled)
  /-- a message reaches the dispatcher -/
  | received (topic : String) (payload : List UInt8) (outcome : Dispatcher.Outcome)
  /-- an acknowledgement is handed to the pending commands -/
  | acknowledged (a : Message.Ack)
  /-- the client is asked to subscribe, and answers -/
  | subscribed (topic : String) (qos : Qos) (answer : Except TransportError Unit)
  /-- the client is asked to publish, for a command if there is an id -/
  | published (p : Publication) (command : Option String)
  /-- the client is asked to disconnect -/
  | disconnected
  /-- the state of the connection is set -/
  | became (old new : Connection.Status)
  /-- the send of a task is registered, with its command -/
  | registered (n : Nat) (send : Command.Send) (command : Message.Command)
  /-- the publish call of a send ends -/
  | handed (n : Nat) (r : Except PublishError Unit)
  /-- a send looks how its race stands -/
  | looked (n : Nat) (cancelled expired : Bool) (now : Int64)
  /-- a send has its result -/
  | resolved (n : Nat) (r : Except Command.Error Message.Ack)
  /-- the caller of a task gives it up -/
  | dropped (n : Nat)
  /-- a task ends -/
  | ended (n : Nat) (r : Result)

end Session

/-- The state of a session.  `link` holds the events that no poll took yet, `tasks` those that have
not ended, `ready` the parties that can run, the first of them first, `timers` who is to be woken at
which time, and `history` what happened at which time, the latest first. -/
structure Session (σ : Type) where
  hub : Hub σ
  client : Session.Client := {}
  link : List Polled := []
  clock : Nat := 0
  tasks : List (Nat × Session.Task) := []
  started : Nat := 0
  commands : Nat := 0
  worker : Option (Connection.Worker × Session.WorkerStage) := none
  ready : List Session.Party := []
  timers : List (Nat × Session.Party) := []
  history : List (Nat × Session.Happening) := []

namespace Session

variable {σ : Type}

/-- the sink of a session, its calendar time, its ids for commands, and what its service can see -/
structure Surroundings (σ : Type) where
  sink : Sink σ
  now : Int64
  idOf : Nat → String
  view : Hub σ → Service.View

/-- the session of a hub in which nothing has happened -/
def new (h : Hub σ) : Session σ := { hub := h }

/-- something happens now -/
def note (s : Session σ) (h : Happening) : Session σ :=
  { s with history := (s.clock, h) :: s.history }

/-- a party can run, after those that can already -/
def wake (s : Session σ) (p : Party) : Session σ :=
  if p ∈ s.ready then s else { s with ready := s.ready ++ [p] }

def task? (s : Session σ) (n : Nat) : Option Task := s.tasks.lookup n

def put (s : Session σ) (n : Nat) (t : Task) : Session σ :=
  { s with tasks := s.tasks.map fun e => if e.1 = n then (n, t) else e }

/-- a party is to be woken at a time -/
def alarm (s : Session σ) (time : Nat) (p : Party) : Session σ :=
  { s with timers := s.timers ++ [(time, p)] }

/-- a party is gone: it cannot run, and nothing wakes it -/
def forget (s : Session σ) (p : Party) : Session σ :=
  { s with ready := s.ready.filter (· ≠ p), timers := s.timers.filter (·.2 ≠ p) }

/-- a task is gone, and its send is not pending -/
def remove (s : Session σ) (n : Nat) : Session σ :=
  let pending :=
    match (s.task? n).bind Task.send? with
    | some send => s.hub.pending.remove send.id
    | none => s.hub.pending
  { s.forget (.task n) with
    tasks := s.tasks.filter (·.1 ≠ n), hub := { s.hub with pending := pending } }

def finish (s : Session σ) (n : Nat) (r : Result) : Session σ := (s.remove n).note (.ended n r)

/-- the caller of a task gives it up -/
def drop (s : Session σ) (n : Nat) : Session σ :=
  match s.task? n with
  | some _ => (s.remove n).note (.dropped n)
  | none => s

/-- the tasks at certain stages can run -/
def wakeTasks (s : Session σ) (p : Stage → Bool) : Session σ :=
  (s.tasks.filter fun e => p e.2.stage).foldl (fun s e => s.wake (.task e.1)) s

/-- the sends that wait for the acknowledgement of a command can run -/
def wakeSends (s : Session σ) (id : String) : Session σ :=
  s.wakeTasks fun stage =>
    match stage with
    | .racing send _ => send.id = id
    | _ => false

end Session

end DeviceHub
