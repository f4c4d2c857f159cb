import Mathlib
import DeviceHub.Hub

/-!
# What comes of a message

What the dispatcher makes of a message depends on its topic and payload only.

* `Inbound.ack?`           the acknowledgement that a message is;
* `Dispatcher.outcomeOf`   what comes of a message, whoever takes it in;
* `Dispatcher.onMessage_snd`, `Hub.onMessage_snd`  it does;
* `Dispatcher.outcomeOf_eq_forwarded_iff`  an acknowledgement comes of it when it was read as one;
* `Hub.onMessage_pending`, `Hub.onMessage_connection`, `Hub.onMessage_limit`  the rest of the hub.
-/

namespace DeviceHub

open Message

def Inbound.ack? : Inbound → Option Ack
  | .ack _ a => some a
  | _ => none

namespace Dispatcher

def Outcome.ack? : Outcome → Option Ack
  | .taken a => a
  | .rejected _ => none

theorem Outcome.ack?_eq_some {o : Outcome} {a : Ack} (h : o.ack? = some a) :
    o = .taken (some a) := by
  cases o with
  | taken b => exact congrArg Outcome.taken h
  | rejected why => cases h

variable {σ : Type}

def outcomeOf (topic : String) (payload : List UInt8) : Outcome :=
  match Inbound.read topic payload with
  | .error why => .rejected why
  | .ok m => .taken m.ack?

theorem take_snd (s : Sink σ) (now : Int64) (d : Dispatcher σ) (m : Inbound) :
    (d.take s now m).2 = m.ack? := by
  cases m <;> rfl

theorem onMessage_snd (s : Sink σ) (now : Int64) (d : Dispatcher σ) (topic : String)
    (payload : List UInt8) : (d.onMessage s now topic payload).2 = outcomeOf topic payload := by
  unfold onMessage outcomeOf
  cases Inbound.read topic payload with
  | error why => rfl
  | ok m =>
    show Outcome.taken ((d.counted false).take s now m).2 = Outcome.taken m.ack?
    rw [take_snd]

theorem outcomeOf_eq_forwarded_iff {topic : String} {payload : List UInt8} {a : Ack} :
    outcomeOf topic payload = .taken (some a) ↔
      ∃ e, Inbound.read topic payload = .ok (.ack e a) := by
  unfold outcomeOf
  constructor
  · intro h
    cases hread : Inbound.read topic payload with
    | error why =>
      rw [hread] at h
      cases h
    | ok m =>
      rw [hread] at h
      cases m with
      | ack e b =>
        cases h
        exact ⟨e, rfl⟩
      | _ => cases h
  · rintro ⟨e, hread⟩
    rw [hread]
    rfl

end Dispatcher

namespace Hub

def afterOutcome (p : Command.Pending) : Dispatcher.Outcome → Command.Pending
  | .taken (some a) => p.acknowledge a
  | _ => p

variable {σ : Type} (s : Sink σ) (now : Int64) (h : Hub σ) (topic : String) (payload : List UInt8)

theorem onMessage_snd :
    (h.onMessage s now topic payload).2 = Dispatcher.outcomeOf topic payload := by
  rw [← Dispatcher.onMessage_snd s now h.dispatcher]
  unfold onMessage
  rcases h.dispatcher.onMessage s now topic payload with ⟨d, (_ | a) | why⟩ <;> rfl

theorem onMessage_pending : (h.onMessage s now topic payload).1.pending =
    afterOutcome h.pending (Dispatcher.outcomeOf topic payload) := by
  rw [← Dispatcher.onMessage_snd s now h.dispatcher]
  unfold onMessage
  rcases h.dispatcher.onMessage s now topic payload with ⟨d, (_ | a) | why⟩ <;> rfl

theorem onMessage_connection :
    (h.onMessage s now topic payload).1.connection = h.connection := by
  unfold onMessage
  rcases h.dispatcher.onMessage s now topic payload with ⟨d, (_ | a) | why⟩ <;> rfl

theorem onMessage_limit : (h.onMessage s now topic payload).1.limit = h.limit := by
  unfold onMessage
  rcases h.dispatcher.onMessage s now topic payload with ⟨d, (_ | a) | why⟩ <;> rfl

end Hub

end DeviceHub
