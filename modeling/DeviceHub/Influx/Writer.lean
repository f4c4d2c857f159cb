import DeviceHub.Point.Line

/-!
# The writer of points

Points are queued as lines, and a writer in the background posts them in batches.

* `Influx.Writer`   the queue, the batch that the writer collects, and where the writer stands;
* `Writer.offer`    a point put into the queue, or refused;
* `Writer.step?`    what the writer does next, unless it waits for a line, and what it shows then;
* `Writer.close`    no one writes any more;
* `Writer.stop`     the writer is ended from outside;
* `Writer.drain`    the bodies that the writer posts when no one writes any more.

The writer waits for a first line, takes more of them as long as some are queued and the batch is not
full, posts the batch, and waits for the answer, while others may write.  Whatever the answer is, it
goes to the log and the batch is done with.  The writer ends when nothing is queued and no one can
write.
-/

namespace DeviceHub.Influx

/-- what becomes of a post -/
inductive Delivery
  | written
  | rejected (status : Nat)
  | failed (error : String)
deriving DecidableEq

/-- where the writer stands -/
inductive Stage
  /-- it waits for the first line of a batch -/
  | waiting
  /-- it takes further lines -/
  | filling
  /-- it waits for the answer to a post -/
  | posting
  | stopped
deriving DecidableEq

/-- what the writer shows -/
inductive Sign
  /-- a batch is posted -/
  | posted (lines : List String)
  /-- the log says how many points were posted, and what became of the post -/
  | logged (points : Nat) (d : Delivery)
  /-- the log says that the writer stopped -/
  | ended

/-- The queue, the batch that is collected or posted, where the writer stands, and whether someone
can write. -/
structure Writer where
  capacity : Nat
  batchSize : Nat
  queue : List String := []
  batch : List String := []
  stage : Stage := .waiting
  isOpen : Bool := true

def join (lines : List String) : String := "\n".intercalate lines

def Sign.body? : Sign → Option String
  | .posted lines => some (join lines)
  | _ => none

namespace Writer

/-- an empty queue; a capacity or a batch size of zero counts as one -/
def new (capacity batchSize : Nat) : Writer :=
  { capacity := max capacity 1, batchSize := max batchSize 1 }

def offer (w : Writer) (p : Point) : Writer × Option SinkError :=
  -- that a point has no line is found out before the writer is looked at
  match p.line? with
  | none => (w, some (.write "point has no fields"))
  | some line =>
    if w.stage = .stopped then (w, some .closed)
    else if w.capacity ≤ w.queue.length then (w, some .queueFull)
    else ({ w with queue := w.queue ++ [line] }, none)

def close (w : Writer) : Writer := { w with isOpen := false }

/-- The writer is ended from outside.  What is queued is lost. -/
def stop (w : Writer) : Writer := { w with stage := .stopped, queue := [], batch := [] }

def post (w : Writer) : Writer × List Sign := ({ w with stage := .posting }, [.posted w.batch])

/-- What the writer does next.  If it waits for the answer to a post, `d` is that answer. -/
def step? (w : Writer) (d : Delivery) : Option (Writer × List Sign) :=
  match w.stage, w.queue with
  | .waiting, line :: rest =>
    some ({ w with stage := .filling, queue := rest, batch := w.batch ++ [line] }, [])
  | .waiting, [] => if w.isOpen then none else some ({ w with stage := .stopped }, [.ended])
  | .filling, line :: rest =>
    if w.batch.length < w.batchSize then
      some ({ w with queue := rest, batch := w.batch ++ [line] }, [])
    else some w.post
  | .filling, [] => some w.post
  | .posting, _ =>
    -- whatever the answer is, the batch is done with
    some ({ w with stage := .waiting, batch := [] }, [.logged w.batch.length d])
  | .stopped, _ => none

/-- An upper bound of the steps until the writer stops, once no one writes any more. -/
def effort (w : Writer) : Nat :=
  match w.stage with
  | .waiting => 3 * w.queue.length + 1
  | .filling => 3 * w.queue.length + 3
  | .posting => 3 * w.queue.length + 2
  | .stopped => 0

/-- what the writer shows in at most `fuel` steps, when all its posts succeed -/
def signs : Nat → Writer → List Sign
  | 0, _ => []
  | fuel + 1, w =>
    match w.step? .written with
    | some (w, shown) => shown ++ signs fuel w
    | none => []

/-- the bodies that the writer posts when no one writes any more -/
def drain (w : Writer) : List String := (signs w.close.effort w.close).filterMap Sign.body?

end Writer

end DeviceHub.Influx
