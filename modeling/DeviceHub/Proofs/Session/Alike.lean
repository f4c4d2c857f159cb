import DeviceHub.Proofs.Session.Alike.Tasks

/-!
# Every action keeps sessions alike

* `Alike.resume_past` ... `Alike.answer_past`   of another task that waits for its acknowledgement, the
                  send sees nothing;
* `Alike.resume` ... `Alike.reach`   actions;
* `Alike.act`     all of them.
-/

namespace DeviceHub.Session.Alike

variable {σ : Type} {n m : Nat} {s s' : Session σ}

theorem resume_past (x : Surroundings σ) (s : Session σ) (hmn : m ≠ n) (hp : Task.Past (s.task? m))
    (hclear : Desk.Clear n m s.desk) : Alike n s (s.resume x (.task m)) := by
  have hready : Alike n s { s with ready := s.ready.filter (· ≠ .task m) } := .of_eq rfl rfl
  have hgoes {s : Session σ} (hp : Task.Past (s.task? m)) (hclear : Desk.Clear n m s.desk)
      {t : Task} (ht : s.task? m = some t) : Alike n s (s.resumeTask x m t) := by
    obtain ⟨send, limit, hstage⟩ := hp t ht
    unfold Session.resumeTask
    rw [hstage]
    exact race_past x s hmn hp hclear t send limit
  cases ht : s.task? m with
  | none => exact (resume_task_none x s ht) ▸ hready
  | some t =>
    rw [resume_task_some x s ht]
    refine hready.trans ?_
    exact hgoes (s := { s with ready := s.ready.filter (· ≠ .task m) }) hp hclear ht

theorem cancel_past (s : Session σ) (hmn : m ≠ n) (hp : Task.Past (s.task? m)) :
    Alike n s (s.cancel m) := by
  unfold Session.cancel
  split
  · exact .refl n s
  · rename_i t ht
    have hput : Alike n s (s.put m { t with cancelled := t.cancelled.map fun _ => true }) := by
      refine ⟨rfl, ?_⟩
      rw [desk_put]
      obtain ⟨send, limit, hstage⟩ := hp t ht
      exact .put_past _ hmn ht (fun u hu => ⟨send, limit, Option.some.inj hu ▸ hstage⟩)
        (fun u hu => ⟨send, limit, Option.some.inj hu ▸ hstage⟩)
    simp only
    split
    · split
      · exact hput.trans (.wake n _ _)
      · exact hput
    · exact hput

theorem drop_past (s : Session σ) (hmn : m ≠ n) (hp : Task.Past (s.task? m))
    (hclear : Desk.Clear n m s.desk) : Alike n s (s.drop m) := by
  have hremoved : Alike n s (s.remove m) := by
    refine ⟨rfl, ?_⟩
    rw [desk_remove]
    exact .remove_past _ hmn hp hclear
  have hdropped (s : Session σ) : Alike n s (s.note (.dropped m)) := ⟨rfl, .aside _ _ rfl⟩
  unfold Session.drop
  split
  · exact hremoved.trans (hdropped _)
  · exact .refl n s

/-- A task that waits for its acknowledgement has no publish call that waits for the client. -/
theorem answer_past (x : Surroundings σ) (s : Session σ) (hp : Task.Past (s.task? m))
    (r : Except TransportError Unit) : Alike n s (s.answer x m r) := by
  unfold Session.answer
  split
  · exact .refl n s
  · rename_i t ht
    obtain ⟨send, limit, hstage⟩ := hp t ht
    rw [hstage]
    exact .refl n s

theorem tasks (h : Alike n s s') (m : Nat) : s'.task? m = s.task? m ∨
    m ≠ n ∧ Task.Past (s.task? m) ∧ Task.Past (s'.task? m) := h.desk.tasks m

theorem cancel (h : Alike n s s') (m : Nat) : Alike n (s.cancel m) (s'.cancel m) := by
  rcases h.tasks m with he | ⟨hmn, hp, hp'⟩
  · unfold Session.cancel
    rw [he]
    cases ht : s.task? m with
    | none => exact h
    | some t =>
      have hput : Alike n (s.put m { t with cancelled := t.cancelled.map fun _ => true })
          (s'.put m { t with cancelled := t.cancelled.map fun _ => true }) :=
        h.put ht (he.trans ht) rfl
      simp only
      split
      · split
        · exact hput.both (.wake n _ _) (.wake n _ _)
        · exact hput
      · exact hput
  · exact h.both (cancel_past s hmn hp) (cancel_past s' hmn hp')

section
variable {ids : Nat → String} (h : Alike n s s') (ho : Desk.Orderly ids s.desk)
include h ho

theorem resume (ho' : Desk.Orderly ids s'.desk) (hinj : Function.Injective ids)
    (x : Surroundings σ) (hids : x.idOf = ids) (p : Party) :
    Alike n (s.resume x p) (s'.resume x p) := by
  have hready (q : Party) : Alike n { s with ready := s.ready.filter (· ≠ q) }
      { s' with ready := s'.ready.filter (· ≠ q) } := ⟨h.shell, h.desk⟩
  cases p with
  | worker => exact (hready .worker).resumeWorker x
  | task m =>
    rcases h.tasks m with he | ⟨hmn, hp, hp'⟩
    · cases ht : s.task? m with
      | none =>
        rw [resume_task_none x s ht, resume_task_none x s' (he.trans ht)]
        exact hready _
      | some t =>
        rw [resume_task_some x s ht, resume_task_some x s' (he.trans ht)]
        have hnew : Desk.Apart n m s.desk (x.idOf s.commands) := hids ▸ ho.apart_new hinj
        exact (hready (.task m)).resumeTask x ht (he.trans ht) hnew
          (fun own hown => ho.apart ((Desk.send?_of_task ht).trans hown))
    · exact h.both (resume_past x s hmn hp (ho.clear m)) (resume_past x s' hmn hp' (ho'.clear m))

theorem drop (ho' : Desk.Orderly ids s'.desk) (m : Nat) : Alike n (s.drop m) (s'.drop m) := by
  rcases h.tasks m with he | ⟨hmn, hp, hp'⟩
  · unfold Session.drop
    rw [he]
    cases ht : s.task? m with
    | none => exact h
    | some t =>
      have hremove : Alike n (s.remove m) (s'.remove m) := by
        refine ⟨h.shell, ?_⟩
        rw [desk_remove, desk_remove]
        exact h.desk.remove he (ho.clear m)
      exact hremove.note (.dropped m)
  · exact h.both (drop_past s hmn hp (ho.clear m)) (drop_past s' hmn hp' (ho'.clear m))

theorem answer (x : Surroundings σ) (m : Nat) (r : Except TransportError Unit) :
    Alike n (s.answer x m r) (s'.answer x m r) := by
  rcases h.tasks m with he | ⟨-, hp, hp'⟩
  · unfold Session.answer
    rw [he]
    cases ht : s.task? m with
    | none => exact h
    | some t =>
      simp only
      split
      · rename_i send limit hstage
        have hsend : t.send? = send := by rw [Task.send?, hstage]
        exact h.handed x ht (he.trans ht) hsend
          (fun own hown => ho.apart ((Desk.send?_of_task ht).trans (hsend.trans hown))) t _
      · exact h
  · exact h.both (answer_past x s hp r) (answer_past x s' hp' r)

theorem start (ho' : Desk.Orderly ids s'.desk) (job : Job) (token : Option Bool) :
    Alike n (s.start job token) (s'.start job token) := by
  refine ⟨?_, ?_⟩
  · unfold Session.start
    rw [shell_wake, shell_wake]
    exact h.shell
  · rw [desk_start, desk_start]
    exact h.desk.start ho ho' rfl

end

theorem feed (h : Alike n s s') (events : List Polled) :
    Alike n (s.feed events) (s'.feed events) := by
  have hfeed (s : Session σ) : Alike n { s with link := s.link ++ events } (s.feed events) := by
    unfold Session.feed
    refine Alike.trans ?_ (.wakeTasks n _ _)
    simp only
    split
    · exact .wake n _ _
    · exact .refl n _
  have hlink :
      Alike n { s with link := s.link ++ events } { s' with link := s'.link ++ events } := by
    rw [h.link]
    exact h.setLink _
  exact hlink.both (hfeed s) (hfeed s')

theorem acknowledge (h : Alike n s s') (a : Message.Ack) :
    Alike n (s.acknowledge a) (s'.acknowledge a) := by
  refine ⟨?_, ?_⟩
  · rw [shell_acknowledge, shell_acknowledge, h.shell]
  · rw [desk_acknowledge, desk_acknowledge, h.clock]
    exact h.desk.acknowledge a s.clock

theorem reach (h : Alike n s s') (time : Nat) : Alike n (s.reach time) (s'.reach time) := by
  refine ⟨?_, ?_⟩
  · rw [shell_reach, shell_reach, h.shell]
  · rw [desk_reach, desk_reach]
    exact h.desk

theorem act {ids : Nat → String} (hinj : Function.Injective ids) (h : Alike n s s')
    (ho : Desk.Orderly ids s.desk) (ho' : Desk.Orderly ids s'.desk) (x : Surroundings σ)
    (hids : x.idOf = ids) (a : Action) : Alike n (s.act x a) (s'.act x a) := by
  cases a with
  | resume p => exact h.resume ho ho' hinj x hids p
  | start job token => exact h.start ho ho' job token
  | cancel m => exact h.cancel m
  | drop m => exact h.drop ho ho' m
  | feed events => exact h.feed events
  | behave c => exact ⟨congrArg (fun k => { k with client := c }) h.shell, h.desk⟩
  | answer m r => exact h.answer ho x m r
  | acknowledge b => exact h.acknowledge b
  | message topic payload => exact h.receive x topic payload
  | reach time => exact h.reach time

end DeviceHub.Session.Alike
