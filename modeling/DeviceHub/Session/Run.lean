import DeviceHub.Session.Step

/-!
# Sessions: runs

* `Session.run`      the session after actions;
* `Session.after`    the session after actions, each in surroundings of its own;
* `Session.settle`   the parties that can run do so, first come, first served, until none can;
* `Session.advance`  the clock moves on, and every timer on its way takes effect at its own time.
-/

namespace DeviceHub.Session

variable {σ : Type}

def run (x : Surroundings σ) (s : Session σ) (as : List Action) : Session σ := as.foldl (act x) s

/-- an action, and the surroundings in which it happens -/
abbrev Move (σ : Type) := Surroundings σ × Action

/-- The session after actions, each in surroundings of its own: the time of day goes on meanwhile. -/
def after (s : Session σ) (ms : List (Move σ)) : Session σ := ms.foldl (fun s m => s.act m.1 m.2) s

/-- at most `fuel` parties run, each as its turn comes -/
def settleFor (x : Surroundings σ) : Nat → Session σ → Session σ
  | 0, s => s
  | fuel + 1, s =>
    match s.ready with
    | [] => s
    | p :: _ => settleFor x fuel (s.act x (.resume p))

/-- The parties that can run do so until none can.  At one instant a task is woken once at most
by each of the others, and the worker by every task. -/
def settle (x : Surroundings σ) (s : Session σ) : Session σ :=
  settleFor x (s.ready.length + 4 * s.tasks.length + 4) s

def nextAlarm? (s : Session σ) : Option Nat := (s.timers.map (·.1)).min?

/-- the clock comes to a time over at most `fuel` timers -/
def advanceFor (x : Surroundings σ) (time : Nat) : Nat → Session σ → Session σ
  | 0, s => s.act x (.reach time)
  | fuel + 1, s =>
    match s.nextAlarm? with
    | some t =>
      if t ≤ time then advanceFor x time fuel ((s.act x (.reach t)).settle x)
      else s.act x (.reach time)
    | none => s.act x (.reach time)

/-- The clock moves on.  A timer that is set on the way belongs to a task, or to a pause that an event
of the link began. -/
def advance (x : Surroundings σ) (s : Session σ) (ms : Nat) : Session σ :=
  let s := s.settle x
  let fuel := s.timers.length + s.tasks.length + s.link.length + 1
  (advanceFor x (s.clock + ms) fuel s).settle x

end DeviceHub.Session
