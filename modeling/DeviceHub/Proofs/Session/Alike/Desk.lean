import DeviceHub.Proofs.Session.InFlight

/-!
# Desks that one send cannot tell apart

* `Desk.Alike`   its task, its slot and its result are the same, and of the other tasks one may still
                 race on one desk and be gone from the other;
* `Desk.Apart`, `Desk.Clear`   ids that are not that of the send;
* `Alike.note` ... `Alike.acknowledge`   changes that are made to both desks.
-/

namespace DeviceHub.Session

/-- a task that is gone, or waits for its acknowledgement -/
def Task.Past (o : Option Task) : Prop :=
  ∀ t, o = some t → ∃ send limit, t.stage = .racing send limit

namespace Desk

/-- One send cannot tell two desks apart. -/
structure Alike (n : Nat) (d d' : Desk) : Prop where
  started : d'.started = d.started
  commands : d'.commands = d.commands
  /-- the tasks are the same, but others may have ended in one desk -/
  tasks : ∀ m, d'.task? m = d.task? m ∨
    m ≠ n ∧ Task.Past (d.task? m) ∧ Task.Past (d'.task? m)
  slot : ∀ send, d.send? n = some send → d'.pending.slot? send.id = d.pending.slot? send.id
  result : result? d'.history n = result? d.history n

/-- The id of a task's send is not that of another send. -/
def Apart (n m : Nat) (d : Desk) (id : String) : Prop :=
  m ≠ n → ∀ own, d.send? n = some own → own.id ≠ id

/-- A task holds no send, or one whose id is not that of another send. -/
def Clear (n m : Nat) (d : Desk) : Prop := ∀ send, d.send? m = some send → Apart n m d send.id

variable {ids : Nat → String} {n m : Nat} {d d' d'' : Desk}

theorem Orderly.apart (h : Orderly ids d) {send : Command.Send} (hs : d.send? m = some send) :
    Apart n m d send.id := fun hmn own hown hid =>
  hmn (h.task_unique (h.registered m send hs) (h.registered n own hown) hid.symm)

theorem Orderly.clear (h : Orderly ids d) (m : Nat) : Clear n m d := fun _ hs => h.apart hs

theorem Orderly.apart_new (h : Orderly ids d) (hinj : Function.Injective ids) :
    Apart n m d (ids d.commands) := fun _ own hown => h.ne_next_id hinj (h.registered n own hown)

namespace Alike

theorem refl (n : Nat) (d : Desk) : Alike n d d :=
  ⟨rfl, rfl, fun _ => Or.inl rfl, fun _ _ => rfl, rfl⟩

theorem own (h : Alike n d d') : d'.task? n = d.task? n :=
  (h.tasks n).resolve_right fun hn => hn.1 rfl

theorem own_send (h : Alike n d d') : d'.send? n = d.send? n :=
  congrArg (Option.bind · Task.send?) h.own

theorem symm (h : Alike n d d') : Alike n d' d where
  started := h.started.symm
  commands := h.commands.symm
  tasks m := (h.tasks m).imp Eq.symm fun ⟨hm, hp, hp'⟩ => ⟨hm, hp', hp⟩
  slot send hs := (h.slot send (h.own_send ▸ hs)).symm
  result := h.result.symm

theorem trans (h : Alike n d d') (h' : Alike n d' d'') : Alike n d d'' where
  started := h'.started.trans h.started
  commands := h'.commands.trans h.commands
  tasks m := by
    rcases h.tasks m with he | ⟨hm, hp, hp'⟩
    · exact he ▸ h'.tasks m
    · rcases h'.tasks m with he | ⟨-, -, hp''⟩
      · exact Or.inr ⟨hm, hp, he ▸ hp'⟩
      · exact Or.inr ⟨hm, hp, hp''⟩
  slot send hs := (h'.slot send (h.own_send ▸ hs)).trans (h.slot send hs)
  result := h'.result.trans h.result

theorem apart (h : Alike n d d') {id : String} (ha : Apart n m d id) : Apart n m d' id :=
  fun hmn own hown => ha hmn own (h.own_send ▸ hown)

theorem note (h : Alike n d d') (time : Nat) (e : Happening) :
    Alike n (d.note time e) (d'.note time e) where
  started := h.started
  commands := h.commands
  tasks := h.tasks
  slot := h.slot
  result := by
    show result? ((time, e) :: d'.history) n = result? ((time, e) :: d.history) n
    rw [result?_cons, result?_cons, h.result]

/-- Something happens that gives the send no result. -/
theorem aside (d : Desk) (time : Nat) {e : Happening} (he : e.result? n = none) :
    Alike n d (d.note time e) :=
  ⟨rfl, rfl, fun _ => Or.inl rfl, fun _ _ => rfl, by
    show result? ((time, e) :: d.history) n = _
    rw [result?_cons, he]
    rfl⟩

theorem put (h : Alike n d d') {t t' : Task} (ht : d.task? m = some t) (ht' : d'.task? m = some t)
    (hs : t'.send? = t.send?) : Alike n (d.put m t') (d'.put m t') where
  started := h.started
  commands := h.commands
  tasks k := by
    by_cases hk : k = m
    · subst hk
      exact Or.inl ((put_task?_self t' ht').trans (put_task?_self t' ht).symm)
    · rw [put_task?_ne t' hk, put_task?_ne t' hk]
      exact h.tasks k
  slot send hsend := h.slot send (put_send? ht hs n ▸ hsend)
  result := h.result

theorem remove (h : Alike n d d') (ht : d'.task? m = d.task? m) (hclear : Clear n m d) :
    Alike n (d.remove m) (d'.remove m) where
  started := h.started
  commands := h.commands
  tasks k := by
    rw [remove_task?, remove_task?]
    by_cases hk : k = m
    · rw [if_pos hk, if_pos hk]
      exact Or.inl rfl
    · rw [if_neg hk, if_neg hk]
      exact h.tasks k
  slot send hs := by
    rw [remove_send?] at hs
    split at hs
    · cases hs
    · rename_i hnm
      have hsend : d'.send? m = d.send? m := congrArg (Option.bind · Task.send?) ht
      have hne (other : Command.Send) (hm : d.send? m = some other) : other.id ≠ send.id :=
        fun hid => hclear other hm (Ne.symm hnm) send hs hid.symm
      rw [remove_slot? fun other hm => hne other (hsend ▸ hm), remove_slot? hne]
      exact h.slot send hs
  result := h.result

theorem remove_past (d : Desk) (hmn : m ≠ n) (hp : Task.Past (d.task? m))
    (hclear : Clear n m d) : Alike n d (d.remove m) where
  started := rfl
  commands := rfl
  tasks k := by
    rw [remove_task?]
    by_cases hk : k = m
    · subst hk
      rw [if_pos rfl]
      exact Or.inr ⟨hmn, hp, fun t ht => by cases ht⟩
    · rw [if_neg hk]
      exact Or.inl rfl
  slot send hs := remove_slot? fun other hm hid => hclear other hm hmn send hs hid.symm
  result := rfl

theorem put_past (d : Desk) {t t' : Task} (hmn : m ≠ n) (ht : d.task? m = some t)
    (hp : Task.Past (some t)) (hp' : Task.Past (some t')) : Alike n d (d.put m t') where
  started := rfl
  commands := rfl
  tasks k := by
    by_cases hk : k = m
    · subst hk
      rw [put_task?_self t' ht, ht]
      exact Or.inr ⟨hmn, hp, hp'⟩
    · rw [put_task?_ne t' hk]
      exact Or.inl rfl
  slot _ _ := rfl
  result := rfl

theorem start (h : Alike n d d') (ho : Orderly ids d) (ho' : Orderly ids d') {t : Task}
    (ht : t.send? = none) : Alike n (d.start t) (d'.start t) where
  started := congrArg (· + 1) h.started
  commands := h.commands
  tasks k := by
    rw [start_task?, start_task?, h.started]
    by_cases hk : k = d.started + 1
    · rw [hk, ho.numbered _ (Nat.lt_succ_self _), ho'.numbered _ (h.started ▸ Nat.lt_succ_self _)]
      exact Or.inl rfl
    · rw [if_neg hk, Option.or_none, Option.or_none]
      exact h.tasks k
  slot send hs := h.slot send (send?_of_start ht hs)
  result := h.result

theorem register (h : Alike n d d') {t t' : Task} {send : Command.Send} (c : Message.Command)
    (time : Nat) (ht : d.task? m = some t) (ht' : d'.task? m = some t) (hs : t'.send? = some send)
    (hapart : Apart n m d send.id) :
    Alike n (d.register m t' send c time) (d'.register m t' send c time) where
  started := h.started
  commands := congrArg (· + 1) h.commands
  tasks k := by
    by_cases hk : k = m
    · subst hk
      exact Or.inl ((register_task? ht').trans (register_task? ht).symm)
    · rw [register_task?_ne hk, register_task?_ne hk]
      exact h.tasks k
  slot own hown := by
    show (d'.pending.register send.id).slot? own.id = (d.pending.register send.id).slot? own.id
    rw [Command.Pending.slot?_register, Command.Pending.slot?_register]
    split
    · rfl
    · rename_i hne
      refine h.slot own ?_
      by_cases hmn : n = m
      · subst hmn
        cases (register_send? ht hs).symm.trans hown
        exact absurd rfl hne
      · exact register_send?_ne hmn ▸ hown
  result := by
    show result? ((time, _) :: d'.history) n = result? ((time, _) :: d.history) n
    rw [result?_cons, result?_cons, h.result]

theorem acknowledge (h : Alike n d d') (a : Message.Ack) (time : Nat) :
    Alike n (d.acknowledge a time) (d'.acknowledge a time) where
  started := h.started
  commands := h.commands
  tasks := h.tasks
  slot send hs := by
    show (d'.pending.acknowledge a).slot? send.id = (d.pending.acknowledge a).slot? send.id
    rw [Command.Pending.slot?_acknowledge, Command.Pending.slot?_acknowledge, h.slot send hs]
  result := (h.note time (.acknowledged a)).result

end Alike

end Desk

end DeviceHub.Session
