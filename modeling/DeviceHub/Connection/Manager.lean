import DeviceHub.Connection.Basic

/-!
# The connection to the broker: steps

The link to the broker is polled by one party at a time: by a call of `connect` until the broker
accepts the connection, and from then on by a worker, which delivers messages and connects again
after every loss.

* `Connection`                the state that all parties share;
* `Connection.Effect`         what a step does to the outside;
* `connect`, `connectPolled`  the steps of a connect call;
* `Worker`, `workerPolled`, `workerRested`, `workerStopped`  the steps of the worker;
* `beginShutdown`, `finishShutdown`  the steps of a shutdown call;
* `publishGate`, `publishExpired`  whether a publish call reaches the client, and its time limit.

A step stands for the code between two moments at which another party may run.  Every step returns
what it does to the outside as a list of effects in their order.
-/

namespace DeviceHub

/-- The shared state.  `linkHome` says that no party holds the link, `stopping` that a shutdown was
requested, and `handle` that there is a worker which no shutdown waits for yet. -/
structure Connection where
  options : Connection.Options
  status : Connection.Status := .disconnected
  linkHome : Bool := true
  stopping : Bool := false
  handle : Bool := false

namespace Connection

/-- what a step does to the outside -/
inductive Effect
  /-- hands a message to the handler -/
  | deliver (topic : String) (payload : List UInt8)
  /-- asks the client once for every subscription, whatever the client answers -/
  | subscribe
  /-- sets the state that others see -/
  | become (s : Status)
deriving DecidableEq

/-- the connection with another state, and that as an effect -/
def become (c : Connection) (s : Status) : Connection × List Effect :=
  ({ c with status := s }, [.become s])

/-! ## Connect calls -/

/-- A connect call starts: it takes the link, or fails when another party holds it. -/
def connect (c : Connection) : Except TransportError (Connection × List Effect) :=
  if c.linkHome then .ok ({ c with linkHome := false }.become .connecting)
  else .error .alreadyStarted

/-- where a connect call is after a poll -/
inductive ConnectPoint
  | polling
  | connected
  | failed (e : TransportError)

/-- a poll of a connect call -/
def connectPolled (c : Connection) : Polled → Connection × List Effect × ConnectPoint
  | .ok .connAck =>
    -- the link stays taken: a worker takes it over
    let (c, es) := c.become .connected
    ({ c with handle := true }, es ++ [.subscribe], .connected)
  | .ok (.publish topic payload) => (c, [.deliver topic payload], .polling)
  | .ok .other => (c, [], .polling)
  | .error e =>
    -- the next call may take the link
    let (c, es) := c.become .disconnected
    ({ c with linkHome := true }, es, .failed e)

/-! ## The worker -/

/-- where the worker is -/
inductive WorkerPoint
  /-- the connection stands -/
  | listening
  /-- the connection is lost, and the next one awaits the broker's acceptance -/
  | attempting
  /-- the last attempt failed, and the next one begins after a delay -/
  | pausing (delay : Duration)
deriving DecidableEq

/-- the party that holds the link of a connection that was made -/
structure Worker where
  backoff : Backoff
  point : WorkerPoint := .listening

def worker (c : Connection) : Worker := { backoff := .new c.options.backoff }

/-- a poll of the worker while the connection stands -/
def listeningPolled (c : Connection) (w : Worker) : Polled → Connection × List Effect × Worker
  | .ok .connAck => (c, [.subscribe], w)
  | .ok (.publish topic payload) => (c, [.deliver topic payload], w)
  | .ok .other => (c, [], w)
  | .error _ =>
    let (c, es) := c.become .reconnecting
    (c, es, { w with point := .attempting })

/-- a poll of the worker while it attempts to connect again -/
def attemptingPolled (c : Connection) (w : Worker) : Polled → Connection × List Effect × Worker
  | .ok .connAck =>
    let (c, es) := c.become .connected
    (c, es ++ [.subscribe], { w with backoff := w.backoff.reset, point := .listening })
  | .ok (.publish topic payload) => (c, [.deliver topic payload], w)
  | .ok .other => (c, [], w)
  | .error _ =>
    let (delay, backoff) := w.backoff.next
    (c, [], { w with backoff := backoff, point := .pausing delay })

/-- a poll of the worker; while it pauses it does not poll -/
def workerPolled (c : Connection) (w : Worker) (p : Polled) : Connection × List Effect × Worker :=
  match w.point with
  | .listening => c.listeningPolled w p
  | .attempting => c.attemptingPolled w p
  | .pausing _ => (c, [], w)

def workerRested (w : Worker) : Worker := { w with point := .attempting }

/-- The worker notices that a shutdown was requested and ends, and the link with it. -/
def workerStopped (c : Connection) : Connection × List Effect := c.become .disconnected

/-! ## Shutdown calls -/

/-- A shutdown call starts.  The second part says whether it waits for the worker's end. -/
def beginShutdown (c : Connection) : Connection × Bool :=
  ({ c with stopping := true, handle := false }, c.handle)

/-- A shutdown call ends, after the client was asked to disconnect. -/
def finishShutdown (c : Connection) : Connection × List Effect := c.become .disconnected

/-! ## Publishing -/

/-- Only while the connection stands a publish call reaches the client. -/
def isConnected (c : Connection) : Bool := c.status = .connected

def publishGate (c : Connection) : Except PublishError Unit :=
  if c.isConnected then .ok () else .error .notConnected

/-- the error of a publish call that the client does not finish in time -/
def publishExpired (c : Connection) : PublishError :=
  .failed ("publish not accepted within " ++ Decimal.natural c.options.publishLimit.millis ++ " ms")

end Connection

end DeviceHub
