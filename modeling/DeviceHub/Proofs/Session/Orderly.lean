import DeviceHub.Proofs.Command.Pending
import DeviceHub.Proofs.Session.Steps

/-!
# Orderly desks

* `Desk.Orderly`        tasks, slots and history agree on which sends are in flight;
* `Orderly.step`        every change keeps this, when no two commands get the same id;
* `Orderly.after`       so it holds after every run;
* `Orderly.mem_inFlight_iff`, `Orderly.contains_iff`  the sends in flight are those that tasks hold,
                        and their ids are the keys of the slots.
-/

namespace DeviceHub.Session.Desk

variable {ids : Nat → String} {d : Desk}

/-- What the parts of a desk say of each other. -/
structure Orderly (ids : Nat → String) (d : Desk) : Prop where
  /-- the slots are in order, and acknowledgements lie under their ids -/
  tidy : d.pending.Tidy
  /-- tasks have the numbers up to that of the last one started -/
  numbered : ∀ n, d.started < n → d.task? n = none
  /-- sends belong to tasks that were started -/
  started : ∀ e ∈ registrations d.history, e.1 ≤ d.started
  /-- the task of a send holds it -/
  holds : ∀ e ∈ registrations d.history, ∀ t, d.task? e.1 = some t → t.send? = some e.2
  /-- what a task holds was registered -/
  registered : ∀ n send, d.send? n = some send → (n, send) ∈ registrations d.history
  /-- a send that has ended has no task -/
  gone : ∀ n, hasEnded d.history n = true → n ≤ d.started ∧ d.task? n = none
  /-- a send without a task has ended -/
  ended : ∀ e ∈ registrations d.history, d.task? e.1 = none → hasEnded d.history e.1 = true
  /-- the ids of sends were given to commands -/
  given : ∀ e ∈ registrations d.history, ∃ k < d.commands, e.2.id = ids k
  /-- no task has two sends -/
  tasks_nodup : ((registrations d.history).map (·.1)).Nodup
  /-- no two sends have the same id -/
  ids_nodup : ((registrations d.history).map (·.2.id)).Nodup
  /-- there is a slot for every send that a task holds, and no other -/
  keys : ∀ id, d.pending.contains id = true ↔ ∃ n send, d.send? n = some send ∧ send.id = id

/-! ## Reading a desk after a change -/

theorem send?_of_task {n : Nat} {t : Task} (ht : d.task? n = some t) : d.send? n = t.send? := by
  show (d.task? n).bind _ = _
  rw [ht]
  rfl

theorem put_task? (n m : Nat) (t : Task) :
    (d.put n t).task? m = if m = n then (d.task? n).map fun _ => t else d.task? m := rfl

theorem put_task?_self {n : Nat} {t₀ : Task} (t : Task) (ht : d.task? n = some t₀) :
    (d.put n t).task? n = some t := by
  rw [put_task?, if_pos rfl, ht]
  rfl

theorem put_task?_ne {n m : Nat} (t : Task) (h : m ≠ n) : (d.put n t).task? m = d.task? m := by
  rw [put_task?, if_neg h]

theorem put_send? {n : Nat} {t t' : Task} (ht : d.task? n = some t) (hs : t'.send? = t.send?)
    (m : Nat) : (d.put n t').send? m = d.send? m := by
  by_cases hm : m = n
  · subst hm
    rw [send?_of_task (put_task?_self t' ht), send?_of_task ht, hs]
  · show ((d.put n t').task? m).bind _ = (d.task? m).bind _
    rw [put_task?_ne t' hm]

theorem remove_task? (n m : Nat) : (d.remove n).task? m = if m = n then none else d.task? m := rfl

theorem remove_send? (n m : Nat) : (d.remove n).send? m = if m = n then none else d.send? m := by
  show ((d.remove n).task? m).bind _ = _
  rw [remove_task?]
  split <;> rfl

theorem task?_of_remove {n m : Nat} {t : Task} (ht : (d.remove n).task? m = some t) :
    d.task? m = some t := by
  rw [remove_task?] at ht
  split at ht
  · cases ht
  · exact ht

theorem send?_of_remove {n m : Nat} {send : Command.Send} (hs : (d.remove n).send? m = some send) :
    d.send? m = some send := by
  rw [remove_send?] at hs
  split at hs
  · cases hs
  · exact hs

theorem remove_task?_none {m : Nat} (hm : d.task? m = none) (n : Nat) :
    (d.remove n).task? m = none := by
  rw [remove_task?, hm, ite_self]

theorem remove_pending {n : Nat} (hs : d.send? n = none) : (d.remove n).pending = d.pending := by
  simp only [remove, hs]

theorem remove_pending_send {n : Nat} {send : Command.Send} (hs : d.send? n = some send) :
    (d.remove n).pending = d.pending.remove send.id := by
  simp only [remove, hs]

theorem remove_slot? {n : Nat} {id : String} (hne : ∀ own, d.send? n = some own → own.id ≠ id) :
    (d.remove n).pending.slot? id = d.pending.slot? id := by
  cases hs : d.send? n with
  | none => rw [remove_pending hs]
  | some own => rw [remove_pending_send hs, Command.Pending.slot?_remove, if_neg (hne own hs)]

section
variable {n m : Nat} {t t' : Task} {send : Command.Send} {c : Message.Command} {time : Nat}

theorem registrations_register : registrations (d.register n t' send c time).history =
    (n, send) :: registrations d.history := registrations_cons d.history _

theorem register_task? (ht : d.task? n = some t) :
    (d.register n t' send c time).task? n = some t' := put_task?_self t' ht

theorem register_task?_ne (hm : m ≠ n) :
    (d.register n t' send c time).task? m = d.task? m := put_task?_ne t' hm

theorem register_send? (ht : d.task? n = some t) (hs' : t'.send? = some send) :
    (d.register n t' send c time).send? n = some send :=
  (send?_of_task (register_task? ht)).trans hs'

theorem register_send?_ne (hm : m ≠ n) : (d.register n t' send c time).send? m = d.send? m :=
  congrArg (Option.bind · Task.send?) (register_task?_ne hm)

end

theorem start_task? (n : Nat) (t : Task) :
    (d.start t).task? n = (d.task? n).or (if n = d.started + 1 then some t else none) := rfl

theorem send?_of_start {n : Nat} {t : Task} {send : Command.Send} (ht : t.send? = none)
    (hs : (d.start t).send? n = some send) : d.send? n = some send := by
  have hstarted : ((d.task? n).or (if n = d.started + 1 then some t else none)).bind Task.send? =
    some send := hs
  cases hold : d.task? n with
  | some u =>
    rw [hold] at hstarted
    exact (send?_of_task hold).trans hstarted
  | none =>
    rw [hold, Option.none_or] at hstarted
    split at hstarted
    · cases ht.symm.trans hstarted
    · cases hstarted

theorem remove_note (n time : Nat) (h : Happening) :
    (d.remove n).note time h = (d.note time h).remove n := rfl

namespace Orderly

theorem le_started (h : Orderly ids d) {n : Nat} {t : Task} (ht : d.task? n = some t) :
    n ≤ d.started := by
  by_contra hlt
  exact absurd (ht.symm.trans (h.numbered n (not_le.mp hlt))) (by simp)

theorem task_unique (h : Orderly ids d) {n m : Nat} {send send' : Command.Send}
    (hn : (n, send) ∈ registrations d.history) (hm : (m, send') ∈ registrations d.history)
    (hid : send.id = send'.id) : n = m :=
  congrArg Prod.fst (List.inj_on_of_nodup_map h.ids_nodup hn hm hid)

theorem new {σ : Type} (h : Hub σ) (hp : h.pending = {}) : Orderly ids (Session.new h).desk where
  tidy := by
    show h.pending.Tidy
    rw [hp]
    exact Command.Pending.Tidy.empty
  numbered _ _ := rfl
  started e he := by cases he
  holds e he := by cases he
  registered n send hs := by cases hs
  gone n hn := by cases hn
  ended e he := by cases he
  given e he := by cases he
  tasks_nodup := List.nodup_nil
  ids_nodup := List.nodup_nil
  keys id := by
    have hnone : (Session.new h).desk.pending.contains id = false := by
      show h.pending.contains id = false
      rw [hp]
      rfl
    rw [hnone]
    exact ⟨fun h => absurd h (by simp), fun ⟨n, send, hs, _⟩ => by cases hs⟩

/-! ## Changes -/

theorem note (h : Orderly ids d) (time : Nat) {e : Happening} (hr : e.registration? = none)
    (he : ∀ n, e.ends n = false) : Orderly ids (d.note time e) := by
  have hregs : registrations ((time, e) :: d.history) = registrations d.history := by
    rw [registrations_cons]
    simp only [hr]
  have hended (n : Nat) : hasEnded ((time, e) :: d.history) n = hasEnded d.history n := by
    rw [hasEnded_cons, he n, Bool.false_or]
  exact {
    tidy := h.tidy
    numbered := h.numbered
    started := fun f hf => h.started f (hregs ▸ hf)
    holds := fun f hf => h.holds f (hregs ▸ hf)
    registered := fun n send hs => hregs.symm ▸ h.registered n send hs
    gone := fun n hn => h.gone n (hended n ▸ hn)
    ended := fun f hf ht => (hended f.1).symm ▸ h.ended f (hregs ▸ hf) ht
    given := fun f hf => h.given f (hregs ▸ hf)
    tasks_nodup := hregs.symm ▸ h.tasks_nodup
    ids_nodup := hregs.symm ▸ h.ids_nodup
    keys := h.keys }

theorem start (h : Orderly ids d) {t : Task} (ht : t.send? = none) : Orderly ids (d.start t) := by
  have hfree : d.task? (d.started + 1) = none := h.numbered _ (Nat.lt_succ_self _)
  have hold {n : Nat} (hn : n ≤ d.started) : (d.start t).task? n = d.task? n := by
    rw [start_task?, if_neg (by omega), Option.or_none]
  have hsend (n : Nat) : (d.start t).send? n = d.send? n := by
    show ((d.start t).task? n).bind _ = (d.task? n).bind _
    by_cases hn : n = d.started + 1
    · subst hn
      rw [start_task?, hfree, if_pos rfl]
      exact ht
    · rw [start_task?, if_neg hn, Option.or_none]
  exact {
    tidy := h.tidy
    numbered := fun n hn => by
      have hn' : d.started + 1 < n := hn
      rw [start_task?, if_neg (by omega), Option.or_none]
      exact h.numbered n (by omega)
    started := fun e he => Nat.le_succ_of_le (h.started e he)
    holds := fun e he t' ht' => h.holds e he t' (hold (h.started e he) ▸ ht')
    registered := fun n send hs => h.registered n send (hsend n ▸ hs)
    gone := fun n hn => by
      obtain ⟨hle, hnone⟩ := h.gone n hn
      exact ⟨Nat.le_succ_of_le hle, (hold hle).trans hnone⟩
    ended := fun e he hnone => h.ended e he (hold (h.started e he) ▸ hnone)
    given := h.given
    tasks_nodup := h.tasks_nodup
    ids_nodup := h.ids_nodup
    keys := fun id => by simp only [hsend]; exact h.keys id }

theorem put (h : Orderly ids d) {n : Nat} {t t' : Task} (ht : d.task? n = some t)
    (hs : t'.send? = t.send?) : Orderly ids (d.put n t') := by
  have hnone (m : Nat) : (d.put n t').task? m = none ↔ d.task? m = none := by
    by_cases hm : m = n
    · subst hm
      rw [put_task?_self t' ht, ht]
      simp
    · rw [put_task?_ne t' hm]
  have hsend (m : Nat) : (d.put n t').send? m = d.send? m := put_send? ht hs m
  exact {
    tidy := h.tidy
    numbered := fun m hm => (hnone m).mpr (h.numbered m hm)
    started := h.started
    holds := fun e he u hu => by
      by_cases hm : e.1 = n
      · rw [hm, put_task?_self t' ht] at hu
        cases hu
        exact hs.trans (h.holds e he t (hm ▸ ht))
      · rw [put_task?_ne t' hm] at hu
        exact h.holds e he u hu
    registered := fun m send hm => h.registered m send (hsend m ▸ hm)
    gone := fun m hm => ⟨(h.gone m hm).1, (hnone m).mpr (h.gone m hm).2⟩
    ended := fun e he hm => h.ended e he ((hnone e.1).mp hm)
    given := h.given
    tasks_nodup := h.tasks_nodup
    ids_nodup := h.ids_nodup
    keys := fun id => by simp only [hsend]; exact h.keys id }

theorem acknowledge (h : Orderly ids d) (a : Message.Ack) :
    Orderly ids { d with pending := d.pending.acknowledge a } :=
  { h with
    tidy := h.tidy.acknowledge a
    keys := fun id => by rw [Command.Pending.contains_acknowledge]; exact h.keys id }

theorem not_registered (h : Orderly ids d) {n : Nat} {t : Task} (ht : d.task? n = some t)
    (hs : t.send? = none) {e : Nat × Command.Send} (he : e ∈ registrations d.history) : e.1 ≠ n := by
  intro hn
  have hheld := h.holds e he t (hn ▸ ht)
  rw [hs] at hheld
  cases hheld

theorem ne_next_id (hinj : Function.Injective ids) (h : Orderly ids d) {e : Nat × Command.Send}
    (he : e ∈ registrations d.history) : e.2.id ≠ ids d.commands := by
  obtain ⟨k, hk, hek⟩ := h.given e he
  rw [hek]
  exact fun heq => absurd (hinj heq) (Nat.ne_of_lt hk)

theorem keys_register (h : Orderly ids d) {n : Nat} {t t' : Task} {send : Command.Send}
    (c : Message.Command) (time : Nat) (ht : d.task? n = some t) (hs : t.send? = none)
    (hs' : t'.send? = some send) (id : String) :
    (d.register n t' send c time).pending.contains id = true ↔
      ∃ m send', (d.register n t' send c time).send? m = some send' ∧ send'.id = id := by
  have hfree : d.send? n = none := (send?_of_task ht).trans hs
  have hsend : (d.register n t' send c time).send? n = some send := register_send? ht hs'
  show (d.pending.register send.id).contains id = true ↔ _
  rw [Command.Pending.contains_eq, Command.Pending.slot?_register]
  by_cases hj : send.id = id
  · rw [if_pos hj]
    exact ⟨fun _ => ⟨n, send, hsend, hj⟩, fun _ => rfl⟩
  · rw [if_neg hj, ← Command.Pending.contains_eq, h.keys id]
    constructor
    · rintro ⟨m, send', hm, hid⟩
      have hmn : m ≠ n := fun hmn => by
        rw [hmn, hfree] at hm
        cases hm
      exact ⟨m, send', (register_send?_ne hmn).trans hm, hid⟩
    · rintro ⟨m, send', hm, hid⟩
      have hmn : m ≠ n := fun hmn => by
        rw [hmn, hsend] at hm
        cases hm
        exact hj hid
      exact ⟨m, send', (register_send?_ne hmn).symm.trans hm, hid⟩

theorem register (hinj : Function.Injective ids) (h : Orderly ids d) {n : Nat} {t t' : Task}
    {send : Command.Send} (c : Message.Command) (time : Nat) (ht : d.task? n = some t)
    (hs : t.send? = none) (hs' : t'.send? = some send) (hid : send.id = ids d.commands) :
    Orderly ids (d.register n t' send c time) := by
  have hended (m : Nat) : hasEnded (d.register n t' send c time).history m =
      hasEnded d.history m := hasEnded_cons d.history _ m
  have htask : (d.register n t' send c time).task? n = some t' := register_task? ht
  -- the new send has a task that had none before, and an id that no command had before
  exact {
    tidy := h.tidy.register send.id
    numbered := fun m hm => by
      have hm' : d.started < m := hm
      rw [register_task?_ne (by have := h.le_started ht; omega)]
      exact h.numbered m hm
    started := fun e he => by
      rw [registrations_register] at he
      rcases List.mem_cons.mp he with rfl | he
      · exact h.le_started ht
      · exact h.started e he
    holds := fun e he u hu => by
      rw [registrations_register] at he
      rcases List.mem_cons.mp he with rfl | he
      · cases htask.symm.trans hu
        exact hs'
      · rw [register_task?_ne (h.not_registered ht hs he)] at hu
        exact h.holds e he u hu
    registered := fun m send' hm => by
      rw [registrations_register]
      by_cases hmn : m = n
      · subst hmn
        cases (register_send? ht hs').symm.trans hm
        exact List.mem_cons_self
      · rw [register_send?_ne hmn] at hm
        exact List.mem_cons_of_mem _ (h.registered m send' hm)
    gone := fun m hm => by
      rw [hended] at hm
      obtain ⟨hle, hnone⟩ := h.gone m hm
      have hmn : m ≠ n := fun hmn => by
        rw [hmn, ht] at hnone
        cases hnone
      exact ⟨hle, (register_task?_ne hmn).trans hnone⟩
    ended := fun e he hnone => by
      rw [registrations_register] at he
      rcases List.mem_cons.mp he with rfl | he
      · cases htask.symm.trans hnone
      · rw [hended]
        exact h.ended e he (register_task?_ne (h.not_registered ht hs he) ▸ hnone)
    given := fun e he => by
      rw [registrations_register] at he
      rcases List.mem_cons.mp he with rfl | he
      · exact ⟨d.commands, Nat.lt_succ_self _, hid⟩
      · obtain ⟨k, hk, hek⟩ := h.given e he
        exact ⟨k, Nat.lt_succ_of_lt hk, hek⟩
    tasks_nodup := by
      rw [registrations_register, List.map_cons, List.nodup_cons]
      refine ⟨fun hmem => ?_, h.tasks_nodup⟩
      obtain ⟨e, he, hen⟩ := List.mem_map.mp hmem
      exact h.not_registered ht hs he hen
    ids_nodup := by
      rw [registrations_register, List.map_cons, List.nodup_cons]
      refine ⟨fun hmem => ?_, h.ids_nodup⟩
      obtain ⟨e, he, hen⟩ := List.mem_map.mp hmem
      exact h.ne_next_id hinj he (hen.trans hid)
    keys := h.keys_register c time ht hs hs' }

theorem keys_remove (h : Orderly ids d) (n : Nat) (id : String) :
    (d.remove n).pending.contains id = true ↔
      ∃ m send, (d.remove n).send? m = some send ∧ send.id = id := by
  simp only [remove_send?]
  cases hn : d.send? n with
  | none =>
    rw [remove_pending hn, h.keys id]
    constructor
    · rintro ⟨m, send, hm, hid⟩
      have hmn : m ≠ n := fun hmn => by
        rw [hmn, hn] at hm
        cases hm
      exact ⟨m, send, (if_neg hmn).trans hm, hid⟩
    · rintro ⟨m, send, hm, hid⟩
      split at hm
      · cases hm
      · exact ⟨m, send, hm, hid⟩
  | some own =>
    rw [remove_pending_send hn, Command.Pending.contains_eq, Command.Pending.slot?_remove]
    constructor
    · intro hc
      split at hc
      · cases hc
      · rename_i hne
        obtain ⟨m, send, hm, hid⟩ := (h.keys id).mp hc
        have hmn : m ≠ n := fun hmn => by
          rw [hmn, hn] at hm
          cases hm
          exact hne hid
        exact ⟨m, send, (if_neg hmn).trans hm, hid⟩
    · rintro ⟨m, send, hm, hid⟩
      split at hm
      · cases hm
      · rename_i hmn
        -- the other send has an id of its own, so its slot is still there
        have hne : own.id ≠ id := fun heq =>
          hmn (h.task_unique (h.registered m send hm) (h.registered n own hn) (hid.trans heq.symm))
        rw [if_neg hne]
        exact (h.keys id).mpr ⟨m, send, hm, hid⟩

theorem tidy_remove (h : Orderly ids d) (n : Nat) : (d.remove n).pending.Tidy := by
  cases hn : d.send? n with
  | none => exact remove_pending hn ▸ h.tidy
  | some send => exact remove_pending_send hn ▸ h.tidy.remove send.id

theorem close (h : Orderly ids d) {n : Nat} (hs : d.send? n = none) :
    Orderly ids (d.remove n) where
  tidy := h.tidy_remove n
  numbered m hm := remove_task?_none (h.numbered m hm) n
  started := h.started
  holds e he t ht := h.holds e he t (task?_of_remove ht)
  registered m send hm := h.registered m send (send?_of_remove hm)
  gone m hm := ⟨(h.gone m hm).1, remove_task?_none (h.gone m hm).2 n⟩
  ended e he hnone := by
    rw [remove_task?] at hnone
    split at hnone
    · rename_i hn
      refine h.ended e he ?_
      cases ht : d.task? e.1 with
      | none => rfl
      | some t => exact absurd rfl (h.not_registered ht (send?_of_task ht ▸ hn ▸ hs) he)
    · exact h.ended e he hnone
  given := h.given
  tasks_nodup := h.tasks_nodup
  ids_nodup := h.ids_nodup
  keys := h.keys_remove n

theorem finish (h : Orderly ids d) {n : Nat} {t : Task} (ht : d.task? n = some t) (time : Nat)
    {e : Happening} (hr : e.registration? = none) (he : ∀ m, e.ends m = decide (n = m)) :
    Orderly ids ((d.remove n).note time e) := by
  have hregs : registrations ((time, e) :: d.history) = registrations d.history := by
    rw [registrations_cons]
    simp only [hr]
  have hended (m : Nat) : hasEnded ((d.remove n).note time e).history m = true ↔
      n = m ∨ hasEnded d.history m = true := by
    rw [show ((d.remove n).note time e).history = (time, e) :: d.history from rfl, hasEnded_cons,
      he m, Bool.or_eq_true, decide_eq_true_iff]
  exact {
    tidy := h.tidy_remove n
    numbered := fun m hm => remove_task?_none (h.numbered m hm) n
    started := fun f hf => h.started f (hregs ▸ hf)
    holds := fun f hf u hu => h.holds f (hregs ▸ hf) u (task?_of_remove hu)
    registered := fun m send hm => hregs.symm ▸ h.registered m send (send?_of_remove hm)
    gone := fun m hm => by
      rcases (hended m).mp hm with rfl | hm
      · exact ⟨h.le_started ht, if_pos rfl⟩
      · exact ⟨(h.gone m hm).1, remove_task?_none (h.gone m hm).2 n⟩
    ended := fun f hf hnone => by
      rw [hended]
      have hnone' : (d.remove n).task? f.1 = none := hnone
      rw [remove_task?] at hnone'
      split at hnone'
      · rename_i hfn
        exact Or.inl hfn.symm
      · exact Or.inr (h.ended f (hregs ▸ hf) hnone')
    given := fun f hf => h.given f (hregs ▸ hf)
    tasks_nodup := hregs.symm ▸ h.tasks_nodup
    ids_nodup := hregs.symm ▸ h.ids_nodup
    keys := h.keys_remove n }

theorem resolve (h : Orderly ids d) {n : Nat} {t : Task} (ht : d.task? n = some t)
    (r : Except Command.Error Message.Ack) (q : Result) (time : Nat) :
    Orderly ids (d.resolve n r q time) := by
  unfold Desk.resolve
  rw [← remove_note]
  exact (h.finish ht time rfl (fun _ => rfl)).note time rfl (fun _ => rfl)

theorem fail (h : Orderly ids d) {n : Nat} {t : Task} (ht : d.task? n = some t) (e : PublishError)
    (q : Result) (time : Nat) : Orderly ids (d.fail n e q time) :=
  (h.note time (e := .handed n (.error e)) rfl (fun _ => rfl)).resolve (t := t) ht _ q time

theorem note_quiet (h : Orderly ids d) (time : Nat) {e : Happening} (hq : e.isQuiet = true) :
    Orderly ids (d.note time e) := by
  refine h.note time ?_ (fun n => ?_)
  · cases e <;> first | rfl | cases hq
  · cases e <;> first | rfl | cases hq

theorem step (hinj : Function.Injective ids) {direct : Prop} {d d' : Desk}
    (hstep : Step ids direct d d') (h : Orderly ids d) : Orderly ids d' := by
  cases hstep with
  | note time e hq => exact h.note_quiet time hq
  | start t ht => exact h.start ht
  | put n t t' ht hs => exact h.put ht hs
  | close n hs => exact h.close hs
  | refuse n t msg q time ht hs => exact h.resolve ht _ q time
  | register n t t' send c time ht hs hs' hid =>
    exact (h.register hinj c time ht hs hs' hid).note time rfl (fun _ => rfl)
  | bounce n t t' send c e q time ht hs hs' hid =>
    exact (h.register hinj c time ht hs hs' hid).fail (put_task?_self t' ht) e q time
  | acknowledge a time => exact (h.acknowledge a).note time rfl (fun _ => rfl)
  | deliver topic payload e a time =>
    exact ((h.acknowledge a).note time rfl (fun _ => rfl)).note time rfl (fun _ => rfl)
  | hand n t t' send time ht hs hs' =>
    exact (h.note time rfl (fun _ => rfl)).put ht (hs'.trans hs.symm)
  | fail n t send e q time ht => exact h.fail ht e q time
  | look n t send cancelled expired now time => exact h.note time rfl (fun _ => rfl)
  | settle n t send cancelled expired now r q time ht =>
    exact (h.note time (e := .looked n cancelled expired now) rfl (fun _ => rfl)).resolve (t := t)
      ht r q time
  | drop n t time ht => exact h.finish ht time rfl (fun _ => rfl)

theorem steps (hinj : Function.Injective ids) {direct : Prop} {d d' : Desk}
    (hsteps : Steps ids direct d d') (h : Orderly ids d) : Orderly ids d' := by
  induction hsteps with
  | refl => exact h
  | tail _ hstep ih => exact ih.step hinj hstep

theorem after (hinj : Function.Injective ids) {σ : Type} {hub : Hub σ} (hp : hub.pending = {})
    {ms : List (Move σ)} (hids : IdsFrom ids ms) :
    Orderly ids ((Session.new hub).after ms).desk := by
  have hsteps : Steps ids True (Session.new hub).desk ((Session.new hub).after ms).desk :=
    steps_after _ ms hids (fun _ _ _ _ => trivial)
  exact (Orderly.new hub hp).steps hinj hsteps

end Orderly

end DeviceHub.Session.Desk
