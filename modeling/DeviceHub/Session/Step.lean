import DeviceHub.Session.Basic

/-!
# Sessions: steps

* `Session.resume`   what a party does from one wait to the next;
* `Session.Action`   what can happen next: a party resumes, or something happens from outside;
* `Session.act`      the session after an action.

A party that is resumed before its wait is over waits on, so that any party may be resumed at any
time.
-/

namespace DeviceHub.Session

variable {σ : Type}

/-! ## The link -/

/-- a message reaches the dispatcher; the send whose acknowledgement it is can run -/
def receive (x : Surroundings σ) (s : Session σ) (topic : String) (payload : List UInt8) :
    Session σ :=
  let (h, outcome) := s.hub.onMessage x.sink x.now topic payload
  let s := { s with hub := h }.note (.received topic payload outcome)
  match outcome with
  | .taken (some a) => (s.note (.acknowledged a)).wakeSends a.id
  | _ => s

def perform (x : Surroundings σ) (s : Session σ) : Connection.Effect → Session σ
  | .deliver topic payload => s.receive x topic payload
  | .subscribe =>
    let options := s.hub.connection.options
    options.subscriptions.zipIdx.foldl (fun s e =>
      s.note (.subscribed e.1 options.subscribeQos (s.client.subscribe e.2 e.1))) s
  | .become new =>
    let c := s.hub.connection
    { s with hub := { s.hub with connection := { c with status := new } } }.note
      (.became c.status new)

def performAll (x : Surroundings σ) (s : Session σ) (es : List Connection.Effect)
    (c : Connection) : Session σ :=
  -- the effects already set the state that others see; `c` brings the rest of the connection
  let s := es.foldl (perform x) s
  { s with hub := { s.hub with connection := c } }

def spawnWorker (s : Session σ) : Session σ :=
  { s with worker := some (s.hub.connection.worker, .fresh) }.wake .worker

/-- a connect call waits for the link, and takes the events that are there -/
def pollConnect (x : Surroundings σ) (n : Nat) : List Polled → Session σ → Session σ
  | [], s => { s with link := [] }
  | p :: rest, s =>
    let (c, es, point) := s.hub.connection.connectPolled p
    let s := { s with link := rest }.note (.took p) |>.performAll x es c
    match point with
    | .polling => pollConnect x n rest (s.note .polled)
    | .connected => s.spawnWorker.finish n (.connected (.ok ()))
    | .failed e => s.finish n (.connected (.error e))

/-- the worker waits for the link, and takes the events that are there -/
def pollWorker (x : Surroundings σ) (w : Connection.Worker) : List Polled → Session σ → Session σ
  | [], s => { s with link := [], worker := some (w, .polling) }
  | p :: rest, s =>
    let (c, es, w) := s.hub.connection.workerPolled w p
    let s := { s with link := rest }.note (.took p) |>.performAll x es c
    match w.point with
    | .pausing delay =>
      -- a delay that is over at once sets no timer
      if delay.ticks = 0 then pollWorker x (Connection.workerRested w) rest (s.note .polled)
      else
        let limit := s.clock + delay.ticks
        { s with worker := some (w, .resting limit) }.alarm limit .worker
    | _ => pollWorker x w rest (s.note .polled)

def startPoll (x : Surroundings σ) (w : Connection.Worker) (s : Session σ) : Session σ :=
  pollWorker x w s.link (s.note .polled)

/-- The worker ends, and with it the wait of a shutdown call. -/
def stopWorker (x : Surroundings σ) (s : Session σ) : Session σ :=
  let (c, es) := s.hub.connection.workerStopped
  let s := (s.performAll x es c).forget .worker
  { s with worker := none }.wakeTasks fun stage =>
    match stage with
    | .joining => true
    | _ => false

def resumeWorker (x : Surroundings σ) (s : Session σ) : Session σ :=
  match s.worker with
  | none => s
  | some (w, stage) =>
    if s.hub.connection.stopping then s.stopWorker x
    else
      match stage with
      | .fresh => s.startPoll x w
      | .polling => pollWorker x w s.link s
      | .resting limit => if limit ≤ s.clock then s.startPoll x (Connection.workerRested w) else s

/-! ## Commands -/

/-- A send ends.  A served one ends with a response. -/
def finishSend (s : Session σ) (n : Nat) (t : Task) (r : Except Command.Error Message.Ack) :
    Session σ :=
  (s.note (.resolved n r)).finish n (if t.served then .responded (Service.sent r) else .sent r)

/-- a send in its race, until whose time limit the clock may have come -/
def race (x : Surroundings σ) (s : Session σ) (n : Nat) (t : Task) (send : Command.Send)
    (limit : Nat) : Session σ :=
  let cancelled : Bool := t.cancelled = some true
  let expired : Bool := limit ≤ s.clock
  let s := s.note (.looked n cancelled expired x.now)
  match send.race cancelled (s.hub.pending.received? send.id) expired x.now with
  | some r => s.finishSend n t r
  | none => s

/-- a task whose publish call ended; a send begins its race -/
def handed (x : Surroundings σ) (s : Session σ) (n : Nat) (t : Task) (send : Option Command.Send)
    (r : Except PublishError Unit) : Session σ :=
  match send with
  | none => s.finish n (.published r)
  | some send =>
    let s := s.note (.handed n r)
    match Command.Send.published r with
    | some r => s.finishSend n t r
    | none =>
      -- the time limit of a send counts from the end of its publish call
      let limit := s.clock + send.limit.ticks
      ((s.put n { t with stage := .racing send limit }).alarm limit (.task n)).race x n t send limit

/-- a task makes a publish call, which may not end at once -/
def publish (x : Surroundings σ) (s : Session σ) (n : Nat) (t : Task) (send : Option Command.Send)
    (p : Publication) : Session σ :=
  match s.hub.connection.publishGate with
  | .error e => s.handed x n t send (.error e)
  | .ok () =>
    let s := s.note (.published p (send.map (·.id)))
    match s.client.publish? with
    | some r => s.handed x n t send (PublishError.ofClient r)
    | none =>
      let limit := s.clock + s.hub.connection.options.publishLimit.ticks
      if limit ≤ s.clock then s.handed x n t send (.error s.hub.connection.publishExpired)
      else (s.put n { t with stage := .handing send limit }).alarm limit (.task n)

/-- a send starts: a command is registered and published, if the request is in order -/
def send (x : Surroundings σ) (s : Session σ) (n : Nat) (t : Task) (r : Command.Request) :
    Session σ :=
  match r.launch s.hub.limit (x.idOf s.commands) x.now with
  | .error e => s.finishSend n t (.error e)
  | .ok (send, command) =>
    -- the slot is there before the client is asked, so an early acknowledgement finds it
    let h := { s.hub with pending := s.hub.pending.register send.id }
    let t := { t with stage := .handing (some send) s.clock }
    let s := { s with hub := h, commands := s.commands + 1 }.note (.registered n send command)
    (s.put n t).publish x n t (some send) (Command.publication command)

def serve (x : Surroundings σ) (s : Session σ) (n : Nat) (t : Task) (r : Service.Request) :
    Session σ :=
  match Service.handle (x.view s.hub) r with
  | none => s.finish n (.responded { status := 400 })
  | some (.respond r) => s.finish n (.responded r)
  | some (.send r) => s.send x n { t with served := true } r

/-! ## Parties -/

def connect (x : Surroundings σ) (s : Session σ) (n : Nat) (t : Task) : Session σ :=
  match s.hub.connection.connect with
  | .error e => s.finish n (.connected (.error e))
  | .ok (c, es) =>
    let s := (s.performAll x es c).put n { t with stage := .polling }
    pollConnect x n s.link (s.note .polled)

def finishShutdown (x : Surroundings σ) (s : Session σ) (n : Nat) : Session σ :=
  let s := s.note .disconnected
  let (c, es) := s.hub.connection.finishShutdown
  (s.performAll x es c).finish n .stopped

def shutdown (x : Surroundings σ) (s : Session σ) (n : Nat) (t : Task) : Session σ :=
  let (c, waits) := s.hub.connection.beginShutdown
  let s := { s with hub := { s.hub with connection := c } }
  -- the worker notices the request when it runs, whatever it waited for
  let s := if s.worker.isSome then s.wake .worker else s
  if waits && s.worker.isSome then s.put n { t with stage := .joining } else s.finishShutdown x n

def begin (x : Surroundings σ) (s : Session σ) (n : Nat) (t : Task) : Job → Session σ
  | .connect => s.connect x n t
  | .shutdown => s.shutdown x n t
  | .send r => s.send x n t r
  | .publish p => s.publish x n t none p
  | .serve r => s.serve x n t r

def resumeTask (x : Surroundings σ) (s : Session σ) (n : Nat) (t : Task) : Session σ :=
  match t.stage with
  | .fresh job => s.begin x n t job
  | .polling => pollConnect x n s.link s
  | .joining => if s.worker.isNone then s.finishShutdown x n else s
  | .handing send limit =>
    if limit ≤ s.clock then s.handed x n t send (.error s.hub.connection.publishExpired) else s
  | .racing send limit => s.race x n t send limit

/-- the client ends a publish call that waits for it, and the task goes on -/
def answer (x : Surroundings σ) (s : Session σ) (n : Nat) (r : Except TransportError Unit) :
    Session σ :=
  match s.task? n with
  | none => s
  | some t =>
    match t.stage with
    | .handing send _ => s.handed x n t send (PublishError.ofClient r)
    | _ => s

/-- a party goes on until it waits or ends -/
def resume (x : Surroundings σ) (s : Session σ) (p : Party) : Session σ :=
  let s := { s with ready := s.ready.filter (· ≠ p) }
  match p with
  | .worker => s.resumeWorker x
  | .task n =>
    match s.task? n with
    | some t => s.resumeTask x n t
    | none => s

/-! ## Actions -/

/-- what can happen next -/
inductive Action
  /-- a party goes on -/
  | resume (p : Party)
  /-- a task is started, which can be cancelled if `token` says whether it is already -/
  | start (job : Job) (token : Option Bool)
  /-- a task is cancelled, if it can be -/
  | cancel (n : Nat)
  /-- the caller of a task gives it up -/
  | drop (n : Nat)
  /-- the link has further events -/
  | feed (events : List Polled)
  /-- the client behaves otherwise -/
  | behave (c : Client)
  /-- the client ends a publish call that waits for it -/
  | answer (n : Nat) (r : Except TransportError Unit)
  /-- an acknowledgement is handed to the pending commands -/
  | acknowledge (a : Message.Ack)
  /-- a message is handed to the dispatcher -/
  | message (topic : String) (payload : List UInt8)
  /-- the clock comes to a time -/
  | reach (time : Nat)

def start (s : Session σ) (job : Job) (token : Option Bool) : Session σ :=
  let n := s.started + 1
  let task : Task := { stage := .fresh job, cancelled := token }
  { s with started := n, tasks := s.tasks ++ [(n, task)] }.wake (.task n)

def cancel (s : Session σ) (n : Nat) : Session σ :=
  match s.task? n with
  | none => s
  | some t =>
    let s := s.put n { t with cancelled := t.cancelled.map fun _ => true }
    -- only a send in its race waits for the token
    match t.stage with
    | .racing .. => if t.cancelled.isSome then s.wake (.task n) else s
    | _ => s

def feed (s : Session σ) (events : List Polled) : Session σ :=
  let s := { s with link := s.link ++ events }
  let s :=
    match s.worker with
    | some (_, .polling) => s.wake .worker
    | _ => s
  s.wakeTasks fun stage =>
    match stage with
    | .polling => true
    | _ => false

def acknowledge (s : Session σ) (a : Message.Ack) : Session σ :=
  ({ s with hub := s.hub.acknowledge a }.note (.acknowledged a)).wakeSends a.id

def reach (s : Session σ) (time : Nat) : Session σ :=
  -- the clock never goes back, and a timer takes effect once
  let due := s.timers.filter fun e => e.1 ≤ time
  due.foldl (fun s e => s.wake e.2)
    { s with clock := max s.clock time, timers := s.timers.filter fun e => ¬ e.1 ≤ time }

def act (x : Surroundings σ) (s : Session σ) : Action → Session σ
  | .resume p => s.resume x p
  | .start job token => s.start job token
  | .cancel n => s.cancel n
  | .drop n => s.drop n
  | .feed events => s.feed events
  | .behave c => { s with client := c }
  | .answer n r => s.answer x n r
  | .acknowledge a => s.acknowledge a
  | .message topic payload => s.receive x topic payload
  | .reach time => s.reach time

end DeviceHub.Session
