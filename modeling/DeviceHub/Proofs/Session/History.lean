import DeviceHub.Proofs.Command.Course
import DeviceHub.Session.Run

/-!
# What a history says of sends

A history lists what happened in a session, the latest first.

* `registrations`  the sends that were registered, each with its task;
* `hasEnded`       whether the send of a task has its result or was given up;
* `inFlight`       the sends that were registered and have not ended;
* `result?`        the result of the send of a task;
* `since`          what happened since the send of a task was registered;
* `turns`          what of that concerned the send.
-/

namespace DeviceHub.Session

open Command (Turn)

abbrev History := List (Nat × Happening)

namespace Happening

def registration? : Happening → Option (Nat × Command.Send)
  | .registered n send _ => some (n, send)
  | _ => none

def ends (n : Nat) : Happening → Bool
  | .resolved m _ => m = n
  | .dropped m => m = n
  | _ => false

def result? (n : Nat) : Happening → Option (Except Command.Error Message.Ack)
  | .resolved m r => if m = n then some r else none
  | _ => none

def registers (n : Nat) : Happening → Bool
  | .registered m _ _ => m = n
  | _ => false

/-- what happens to the send of a task, whose command has the id -/
def turn? (n : Nat) (id : String) : Happening → Option Turn
  | .acknowledged a => if a.id = id ∧ a.id ≠ "" then some (.acknowledged a) else none
  | .handed m r => if m = n then some (.handed r) else none
  | .looked m cancelled expired now => if m = n then some (.looked cancelled expired now) else none
  | _ => none

/-- whether a happening concerns no send -/
def isQuiet : Happening → Bool
  | .received _ _ (.taken (some _)) => false
  | .acknowledged _ | .published _ (some _) => false
  | .registered .. | .handed .. | .looked .. | .resolved .. | .dropped _ => false
  | .ended _ (.sent _) => false
  | _ => true

end Happening

/-- the sends that were registered, each with its task -/
def registrations (h : History) : List (Nat × Command.Send) := h.filterMap (·.2.registration?)

/-- whether the send of a task has its result or was given up -/
def hasEnded (h : History) (n : Nat) : Bool := h.any (·.2.ends n)

/-- the sends that were registered and have not ended -/
def inFlight (h : History) : List (Nat × Command.Send) :=
  (registrations h).filter fun e => !hasEnded h e.1

def result? (h : History) (n : Nat) : Option (Except Command.Error Message.Ack) :=
  h.findSome? (·.2.result? n)

/-- what happened since the send of a task was registered -/
def since (h : History) (n : Nat) : History := h.takeWhile fun e => !e.2.registers n

/-- what happened to the send of a task since it was registered -/
def turns (h : History) (n : Nat) (id : String) : List Turn :=
  (since h n).filterMap (·.2.turn? n id)

/-! ## One more happening -/

section
variable (h : History) (e : Nat × Happening) (n : Nat)

theorem registrations_cons : registrations (e :: h) =
    match e.2.registration? with
    | some p => p :: registrations h
    | none => registrations h := by
  unfold registrations
  cases hr : e.2.registration? with
  | none => exact List.filterMap_cons_none hr
  | some p => exact List.filterMap_cons_some hr

theorem hasEnded_cons : hasEnded (e :: h) n = (e.2.ends n || hasEnded h n) := rfl

theorem result?_cons : result? (e :: h) n = (e.2.result? n).or (result? h n) := by
  unfold result?
  rw [List.findSome?_cons]
  cases e.2.result? n <;> rfl

theorem since_cons (he : e.2.registers n = false) : since (e :: h) n = e :: since h n := by
  unfold since
  rw [List.takeWhile_cons_of_pos (by simp [he])]

theorem since_append {newer h : History} {n : Nat} (hnew : ∀ e ∈ newer, e.2.registers n = false) :
    since (newer ++ h) n = newer ++ since h n :=
  List.takeWhile_append_of_pos fun e he => by simp [hnew e he]

theorem since_registered (t : Nat) (send : Command.Send) (c : Message.Command) :
    since ((t, .registered n send c) :: h) n = [] := by
  unfold since
  rw [List.takeWhile_cons_of_neg (by simp [Happening.registers])]

theorem turns_cons (id : String) (he : e.2.registers n = false) : turns (e :: h) n id =
    match e.2.turn? n id with
    | some t => t :: turns h n id
    | none => turns h n id := by
  unfold turns
  rw [since_cons h e n he]
  cases ht : e.2.turn? n id with
  | none => exact List.filterMap_cons_none ht
  | some t => exact List.filterMap_cons_some ht

theorem turns_registered (id : String) (t : Nat) (send : Command.Send) (c : Message.Command) :
    turns ((t, .registered n send c) :: h) n id = [] := by
  unfold turns
  rw [since_registered]
  rfl

end

/-! ## Membership -/

theorem not_registers_of_mem_since {h : History} {n : Nat} {e : Nat × Happening}
    (he : e ∈ since h n) : e.2.registers n = false := by
  have hopen := List.mem_takeWhile_imp he
  simpa using hopen

theorem mem_registrations {h : History} {n : Nat} {send : Command.Send} :
    (n, send) ∈ registrations h ↔ ∃ t c, (t, Happening.registered n send c) ∈ h := by
  unfold registrations
  rw [List.mem_filterMap]
  constructor
  · rintro ⟨⟨t, e⟩, he, hr⟩
    cases e <;> cases hr
    exact ⟨t, _, he⟩
  · rintro ⟨t, c, he⟩
    exact ⟨_, he, rfl⟩

theorem mem_inFlight {h : History} {n : Nat} {send : Command.Send} :
    (n, send) ∈ inFlight h ↔ (n, send) ∈ registrations h ∧ hasEnded h n = false := by
  unfold inFlight
  rw [List.mem_filter]
  simp

theorem hasEnded_of_suffix {h g : History} (hs : h <:+ g) {n : Nat} (he : hasEnded h n = true) :
    hasEnded g n = true := by
  obtain ⟨new, rfl⟩ := hs
  unfold hasEnded at *
  rw [List.any_append, he, Bool.or_true]

theorem registrations_of_suffix {h g : History} (hs : h <:+ g) {e : Nat × Command.Send}
    (he : e ∈ registrations h) : e ∈ registrations g := by
  obtain ⟨new, rfl⟩ := hs
  unfold registrations at *
  rw [List.filterMap_append]
  exact List.mem_append_right _ he

end DeviceHub.Session
