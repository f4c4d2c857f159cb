import Mathlib
import DeviceHub.Command.Send

/-!
# The course of one send

A send by itself, without the sends beside it.

* `Turn`           what can happen to it: an acknowledgement with its id comes in, its publish call
                   ends, or it looks how its race stands;
* `Course`         what is in its slot, and how it has ended;
* `Course.of`      the course after turns;
* `Course.of_slot` the slot keeps the first acknowledgement;
* `Send.race_isAnswer`  a race that an acknowledgement decides is decided by the one in the slot.

Turns are listed as in a history, the latest first.
-/

namespace DeviceHub.Command

open Message (Ack)

/-- what can happen to a send -/
inductive Turn
  | acknowledged (a : Ack)
  | handed (r : Except PublishError Unit)
  | looked (cancelled expired : Bool) (now : Int64)

def Turn.ack? : Turn → Option Ack
  | .acknowledged a => some a
  | _ => none

/-- the slot of a send, and its result once it has ended -/
structure Course where
  slot : Option Ack := none
  result : Option (Except Error Ack) := none

/-- the results that come of an acknowledgement -/
def IsAnswer : Except Error Ack → Prop
  | .ok _ => True
  | .error .invalidAck => True
  | .error _ => False

theorem not_isAnswer_ofPublish (e : PublishError) : ¬ IsAnswer (.error (.ofPublish e)) := by
  cases e <;> exact id

/-- An acknowledgement that decides a race is the one that was received. -/
theorem Send.race_isAnswer {send : Send} {cancelled expired : Bool} {received : Option Ack}
    {now : Int64} {r : Except Error Ack} (h : send.race cancelled received expired now = some r)
    (hr : IsAnswer r) : ∃ a, received = some a ∧ r = Send.acknowledged a := by
  unfold Send.race at h
  split at h
  · cases h
    cases hr
  · split at h
    · cases h
      exact ⟨_, rfl, rfl⟩
    · split at h
      · cases h
        cases hr
      · cases h

namespace Course

variable (send : Send)

/-- The slot takes one acknowledgement, and the first result stays. -/
def turn (c : Course) : Turn → Course
  | .acknowledged a => { c with slot := c.slot.or (some a) }
  | .handed r => { c with result := c.result.or (Send.published r) }
  | .looked cancelled expired now =>
    { c with result := c.result.or (send.race cancelled c.slot expired now) }

def of (ts : List Turn) : Course := ts.foldr (fun t c => c.turn send t) {}

theorem of_cons (t : Turn) (ts : List Turn) : of send (t :: ts) = (of send ts).turn send t := rfl

theorem of_slot (ts : List Turn) : (of send ts).slot = (ts.filterMap Turn.ack?).getLast? := by
  induction ts with
  | nil => rfl
  | cons t ts ih =>
    rw [of_cons]
    cases t with
    | acknowledged a =>
      show (of send ts).slot.or (some a) = (a :: ts.filterMap Turn.ack?).getLast?
      rw [ih, List.getLast?_cons]
      cases (ts.filterMap Turn.ack?).getLast? <;> rfl
    | handed r => exact ih
    | looked cancelled expired now => exact ih

end Course

end DeviceHub.Command
