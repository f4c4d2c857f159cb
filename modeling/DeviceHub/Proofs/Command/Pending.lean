import DeviceHub.Command.Pending
import DeviceHub.Proofs.Sorted

/-!
# Pending commands: laws

* `Pending.slot?`      the slot of a command: none, an empty one, or one with an acknowledgement;
* `slot?_register`, `slot?_remove`, `slot?_acknowledge`  what each operation does to every slot;
* `Pending.Tidy`       slots in key order, in which an acknowledgement lies under its own id.
-/

namespace DeviceHub.Command.Pending

open Message (Ack)

def slot? (p : Pending) (id : String) : Option (Option Ack) := Sorted.find? id p.slots

theorem contains_eq (p : Pending) (id : String) : p.contains id = (p.slot? id).isSome := rfl

theorem received?_eq (p : Pending) (id : String) : p.received? id = (p.slot? id).join := rfl

theorem slot?_register (p : Pending) (id j : String) :
    (p.register id).slot? j = if id = j then some none else p.slot? j :=
  Sorted.find?_insert id j none p.slots

theorem slot?_remove (p : Pending) (id j : String) :
    (p.remove id).slot? j = if id = j then none else p.slot? j :=
  Sorted.find?_erase id j p.slots

theorem acknowledge_of_empty (p : Pending) (a : Ack) (hid : a.id ≠ "")
    (h : p.slot? a.id = some none) :
    p.acknowledge a = ⟨Sorted.insert a.id (some a) p.slots⟩ := by
  have h' : Sorted.find? a.id p.slots = some none := h
  rw [acknowledge, if_neg hid, h']

theorem acknowledge_of_not_empty (p : Pending) (a : Ack)
    (h : a.id = "" ∨ p.slot? a.id ≠ some none) : p.acknowledge a = p := by
  rw [acknowledge]
  split
  · rfl
  · rename_i hid
    split
    · rename_i hslot
      exact absurd hslot (h.resolve_left hid)
    · rfl

/-- The slot of its command takes an acknowledgement unless it holds an earlier one. -/
theorem slot?_acknowledge (p : Pending) (a : Ack) (j : String) :
    (p.acknowledge a).slot? j =
      if a.id = j ∧ a.id ≠ "" then (p.slot? j).map (·.or (some a)) else p.slot? j := by
  by_cases hid : a.id = ""
  · rw [acknowledge_of_not_empty p a (Or.inl hid), if_neg (fun h => h.2 hid)]
  · by_cases hj : a.id = j
    · subst hj
      rw [if_pos ⟨rfl, hid⟩]
      rcases hslot : p.slot? a.id with _ | _ | b
      · rw [acknowledge_of_not_empty p a (Or.inr (by simp [hslot])), hslot]
        rfl
      · rw [acknowledge_of_empty p a hid hslot]
        show Sorted.find? a.id (Sorted.insert a.id (some a) p.slots) = _
        rw [Sorted.find?_insert, if_pos rfl]
        rfl
      · rw [acknowledge_of_not_empty p a (Or.inr (by simp [hslot])), hslot]
        rfl
    · rw [if_neg (fun h => hj h.1)]
      by_cases hslot : p.slot? a.id = some none
      · rw [acknowledge_of_empty p a hid hslot]
        show Sorted.find? j (Sorted.insert a.id (some a) p.slots) = _
        rw [Sorted.find?_insert, if_neg hj]
        rfl
      · rw [acknowledge_of_not_empty p a (Or.inr hslot)]

theorem contains_acknowledge (p : Pending) (a : Ack) (id : String) :
    (p.acknowledge a).contains id = p.contains id := by
  rw [contains_eq, contains_eq, slot?_acknowledge]
  split
  · rw [Option.isSome_map]
  · rfl

theorem received?_acknowledge_of_ne (p : Pending) (a : Ack) {id : String} (h : a.id ≠ id) :
    (p.acknowledge a).received? id = p.received? id := by
  rw [received?_eq, received?_eq, slot?_acknowledge, if_neg (fun hh => h hh.1)]

theorem received?_acknowledge (p : Pending) (a : Ack) (hid : a.id ≠ "")
    (h : p.contains a.id = true) :
    (p.acknowledge a).received? a.id = (p.received? a.id).or (some a) := by
  rw [contains_eq] at h
  rw [received?_eq, received?_eq, slot?_acknowledge, if_pos ⟨rfl, hid⟩]
  cases hslot : p.slot? a.id with
  | none =>
    rw [hslot] at h
    cases h
  | some o => rfl

theorem acknowledge_unnamed (p : Pending) (a : Ack) (hid : a.id = "") : p.acknowledge a = p :=
  acknowledge_of_not_empty p a (Or.inl hid)

/-- slots in key order, in which an acknowledgement lies under its own id -/
structure Tidy (p : Pending) : Prop where
  sorted : Sorted.IsSorted p.slots
  held : ∀ id a, p.slot? id = some (some a) → a.id = id

namespace Tidy

theorem empty : Tidy {} := ⟨Sorted.isSorted_nil, fun _ _ h => by cases h⟩

theorem register {p : Pending} (h : p.Tidy) (id : String) : (p.register id).Tidy where
  sorted := Sorted.isSorted_insert id none h.sorted
  held j a hj := by
    rw [slot?_register] at hj
    split at hj
    · cases hj
    · exact h.held j a hj

theorem remove {p : Pending} (h : p.Tidy) (id : String) : (p.remove id).Tidy where
  sorted := Sorted.isSorted_erase id h.sorted
  held j a hj := by
    rw [slot?_remove] at hj
    split at hj
    · cases hj
    · exact h.held j a hj

theorem acknowledge {p : Pending} (h : p.Tidy) (a : Ack) : (p.acknowledge a).Tidy where
  sorted := by
    by_cases hopen : a.id ≠ "" ∧ p.slot? a.id = some none
    · rw [acknowledge_of_empty p a hopen.1 hopen.2]
      exact Sorted.isSorted_insert a.id (some a) h.sorted
    · rw [acknowledge_of_not_empty p a (by tauto)]
      exact h.sorted
  held j b hj := by
    rw [slot?_acknowledge] at hj
    split at hj
    · rename_i hid
      rcases hslot : p.slot? j with _ | _ | c
      · rw [hslot] at hj
        cases hj
      · rw [hslot] at hj
        cases hj
        exact hid.1
      · rw [hslot] at hj
        cases hj
        exact h.held j b hslot
    · exact h.held j b hj

theorem mem_slots_iff {p : Pending} (h : p.Tidy) {id : String} {o : Option Ack} :
    (id, o) ∈ p.slots ↔ p.slot? id = some o := Sorted.mem_iff_find? h.sorted

end Tidy

theorem mem_keys_iff (p : Pending) (id : String) :
    id ∈ p.slots.map (·.1) ↔ p.contains id = true := (Sorted.isSome_find? id p.slots).symm

end DeviceHub.Command.Pending
