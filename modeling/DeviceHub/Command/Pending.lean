import DeviceHub.Message.Command
import DeviceHub.Sorted

/-!
# Commands that await their acknowledgement

* `Pending`              a slot for every command that was registered and has not ended;
* `Pending.register`, `Pending.remove`  the beginning and the end of a command;
* `Pending.acknowledge`  an acknowledgement put into the slot of its command.

A slot takes one acknowledgement.  Acknowledgements without an id, for an unknown command or for a
full slot are dropped.
-/

namespace DeviceHub.Command

open Message (Ack)

/-- the slots of commands by their ids, in the order of ids -/
structure Pending where
  slots : List (String × Option Ack) := []

namespace Pending

/-- the slots with an empty one for a new command -/
def register (p : Pending) (id : String) : Pending := ⟨Sorted.insert id none p.slots⟩

def remove (p : Pending) (id : String) : Pending := ⟨Sorted.erase id p.slots⟩

def acknowledge (p : Pending) (a : Ack) : Pending :=
  if a.id = "" then p
  else
    match Sorted.find? a.id p.slots with
    | some none => ⟨Sorted.insert a.id (some a) p.slots⟩
    | _ => p

/-- the acknowledgement in the slot of a command -/
def received? (p : Pending) (id : String) : Option Ack := (Sorted.find? id p.slots).join

def contains (p : Pending) (id : String) : Bool := (Sorted.find? id p.slots).isSome

def count (p : Pending) : Nat := p.slots.length

end Pending

end DeviceHub.Command
