import DeviceHub.Proofs.Session.Standing

/-!
# Publish calls

* `PublishCall`, `calls`, `acceptances`   the publish calls of a run, and what the client accepted;
* `Account`                 what became of the publish call of one task;
* `Uplink.Ledger`           every task has an account, with `Ledger.step` and `Ledger.steps`;
* `state_and_publish_calls` the state of the connection, and which publish calls reach the client.
-/

namespace DeviceHub.Session

/-- a publish call: its task, its message, and whether the connection stands when it begins -/
structure PublishCall where
  task : Nat
  message : Publication
  stands : Bool

def Handover.call? : Handover → Option PublishCall
  | .begun n p stands => some ⟨n, p, stands⟩
  | _ => none

/-- the task whose message the client accepts -/
def Handover.accepted? : Handover → Option Nat
  | .accepted n => some n
  | _ => none

def calls (hs : List Handover) : List PublishCall := hs.filterMap Handover.call?

def acceptances (hs : List Handover) : List Nat := hs.filterMap Handover.accepted?

def callsOf (n : Nat) (hs : List Handover) : List PublishCall := (calls hs).filter (·.task = n)

def acceptancesOf (n : Nat) (hs : List Handover) : List Nat := (acceptances hs).filter (· = n)

def returnsOf (n : Nat) (ms : List Mark) : List (Nat × Except PublishError Unit) :=
  (returns ms).filter (·.1 = n)

/-! ## Accounts -/

/-- What became of the publish call of a task, by how far the task is: its calls, how they ended,
and what the client accepted. -/
inductive Account (n : Nat) : Option Stand → List PublishCall →
    List (Nat × Except PublishError Unit) → List Nat → Prop
  /-- there was none -/
  | idle {st} (h : st ≠ some .handing) : Account n st [] [] []
  /-- the connection did not stand -/
  | refused p : Account n none [⟨n, p, false⟩] [(n, .error .notConnected)] []
  /-- the client is asked -/
  | asked p : Account n (some .handing) [⟨n, p, true⟩] [] []
  /-- the task was given up before the client answered -/
  | dropped p : Account n none [⟨n, p, true⟩] [] []
  /-- the client accepted -/
  | accepted {st} p (h : st = none ∨ st = some .racing) :
      Account n st [⟨n, p, true⟩] [(n, .ok ())] [n]
  /-- the client did not accept in time -/
  | failed p e (he : e ≠ .notConnected) : Account n none [⟨n, p, true⟩] [(n, .error e)] []

/-- how a task goes on apart from its publish call -/
inductive Shift : Option Stand → Option Stand → Prop
  | stay (st) : Shift st st
  | leave (st) : Shift st none
  | begin (job st) (h : st ≠ some .handing) : Shift (some (.fresh job)) st

namespace Account

variable {n : Nat} {st st' : Option Stand} {cs : List PublishCall}
  {rs : List (Nat × Except PublishError Unit)} {as : List Nat}

theorem shift (h : Account n st cs rs as) (hshift : Shift st st') : Account n st' cs rs as := by
  cases hshift with
  | stay => exact h
  | leave =>
    cases h with
    | idle => exact .idle (by simp)
    | refused p => exact .refused p
    | asked p => exact .dropped p
    | dropped p => exact .dropped p
    | accepted p => exact .accepted p (Or.inl rfl)
    | failed p e he => exact .failed p e he
  | begin job st hst =>
    cases h with
    | idle => exact .idle hst
    | accepted p h => simp at h

theorem eq_nil_of_fresh {job : Job} (h : Account n (some (.fresh job)) cs rs as) :
    cs = [] ∧ rs = [] ∧ as = [] := by
  cases h with
  | idle => exact ⟨rfl, rfl, rfl⟩
  | accepted p h => simp at h

theorem eq_nil_of_calls (h : Account n st [] rs as) : rs = [] ∧ as = [] := by
  cases h
  exact ⟨rfl, rfl⟩

theorem eq_of_handing (h : Account n (some .handing) cs rs as) :
    ∃ p, cs = [⟨n, p, true⟩] ∧ rs = [] ∧ as = [] := by
  cases h with
  | idle h => exact absurd rfl h
  | asked p => exact ⟨p, rfl, rfl, rfl⟩
  | accepted p h => simp at h

theorem calls_length (h : Account n st cs rs as) : cs.length ≤ 1 := by
  cases h <;> simp

theorem returns_length (h : Account n st cs rs as) : rs.length ≤ 1 := by
  cases h <;> simp

theorem not_connected_iff (h : Account n st cs rs as) :
    (n, .error .notConnected) ∈ rs ↔ ∃ c ∈ cs, c.stands = false := by
  cases h with
  | failed p e he => simp [Ne.symm he]
  | _ => simp

theorem ok_iff (h : Account n st cs rs as) : (n, .ok ()) ∈ rs ↔ n ∈ as := by
  cases h <;> simp

theorem stands_of_accepted (h : Account n st cs rs as) (hn : n ∈ as) :
    ∃ c ∈ cs, c.stands = true := by
  cases h with
  | accepted p hst => exact ⟨_, List.mem_cons_self, rfl⟩
  | _ => cases hn

end Account

/-! ## Lists of marks and of publish calls -/

theorem sent_append (ms ms' : List Mark) : sent (ms ++ ms') = sent ms ++ sent ms' :=
  List.filterMap_append ..

theorem returns_append (ms ms' : List Mark) : returns (ms ++ ms') = returns ms ++ returns ms' :=
  List.filterMap_append ..

theorem calls_append (hs hs' : List Handover) : calls (hs ++ hs') = calls hs ++ calls hs' :=
  List.filterMap_append ..

theorem acceptances_append (hs hs' : List Handover) :
    acceptances (hs ++ hs') = acceptances hs ++ acceptances hs' := List.filterMap_append ..

theorem callsOf_append (n : Nat) (hs hs' : List Handover) :
    callsOf n (hs ++ hs') = callsOf n hs ++ callsOf n hs' := by
  unfold callsOf
  rw [calls_append, List.filter_append]

theorem acceptancesOf_append (n : Nat) (hs hs' : List Handover) :
    acceptancesOf n (hs ++ hs') = acceptancesOf n hs ++ acceptancesOf n hs' := by
  unfold acceptancesOf
  rw [acceptances_append, List.filter_append]

theorem returnsOf_append (n : Nat) (ms ms' : List Mark) :
    returnsOf n (ms ++ ms') = returnsOf n ms ++ returnsOf n ms' := by
  unfold returnsOf
  rw [returns_append, List.filter_append]

theorem callsOf_begun (m n : Nat) (p : Publication) (stands : Bool) :
    callsOf m [.begun n p stands] = if n = m then [⟨n, p, stands⟩] else [] := by
  show List.filter _ [_] = _
  rw [List.filter_singleton, Bool.cond_decide]

theorem returnsOf_returned (m n : Nat) (r : Except PublishError Unit) :
    returnsOf m [.returned n r] = if n = m then [(n, r)] else [] := by
  show List.filter _ [_] = _
  rw [List.filter_singleton, Bool.cond_decide]

theorem acceptancesOf_accepted (m n : Nat) :
    acceptancesOf m [.accepted n] = if n = m then [n] else [] := by
  show List.filter _ [_] = _
  rw [List.filter_singleton, Bool.cond_decide]

namespace Uplink

variable {direct : Prop} {u u' : Uplink}

theorem sent_perform (u : Uplink) (es : List Connection.Effect) (c : Connection) :
    sent (u.perform es c).marks = sent u.marks := by
  show sent (u.marks ++ es.flatMap (effectMarks u.connection.options)) = _
  rw [sent_append, show sent (es.flatMap _) = [] from
    filterMap_effects _ (fun _ _ => rfl) (fun _ _ => rfl) (fun _ => rfl) _ es, List.append_nil]

theorem returns_perform (u : Uplink) (es : List Connection.Effect) (c : Connection) :
    returns (u.perform es c).marks = returns u.marks := by
  show returns (u.marks ++ es.flatMap (effectMarks u.connection.options)) = _
  rw [returns_append, show returns (es.flatMap _) = [] from
    filterMap_effects _ (fun _ _ => rfl) (fun _ _ => rfl) (fun _ => rfl) _ es, List.append_nil]

theorem sent_take (u : Uplink) (p : Polled) (es : List Connection.Effect) (c : Connection) :
    sent (u.take p es c).marks = sent u.marks := by
  unfold take
  rw [sent_perform]
  exact (sent_append u.marks [.took p]).trans (List.append_nil _)

theorem returns_take (u : Uplink) (p : Polled) (es : List Connection.Effect) (c : Connection) :
    returns (u.take p es c).marks = returns u.marks := by
  unfold take
  rw [returns_perform]
  exact (returns_append u.marks [.took p]).trans (List.append_nil _)

theorem shift_leave (u : Uplink) (n m : Nat) : Shift (u.stand? m) ((u.leave n).stand? m) := by
  show Shift _ (Function.update u.stand? n none m)
  rw [Function.update_apply]
  split
  · exact .leave _
  · exact .stay _

theorem shift_put {n : Nat} {job : Job} (hn : u.stand? n = some (.fresh job)) {st : Stand}
    (hst : st ≠ .handing) (m : Nat) : Shift (u.stand? m) ((u.put n st).stand? m) := by
  show Shift _ (Function.update u.stand? n (some st) m)
  rw [Function.update_apply]
  split
  · rename_i hm
    rw [hm, hn]
    exact .begin job _ (by simp [hst])
  · exact .stay _

/-! ## The ledger -/

/-- What the client was asked to publish is what the calls published that began while the connection
stood, and every task has its account. -/
structure Ledger (u : Uplink) : Prop where
  sent : sent u.marks = ((calls u.log).filter PublishCall.stands).map PublishCall.message
  account : ∀ n,
    Account n (u.stand? n) (callsOf n u.log) (returnsOf n u.marks) (acceptancesOf n u.log)
  numbered : ∀ n, u.started < n → u.stand? n = none ∧ callsOf n u.log = []

namespace Ledger

theorem keep (h : Ledger u) (hlog : u'.log = u.log)
    (hsent : Session.sent u'.marks = Session.sent u.marks)
    (hreturns : returns u'.marks = returns u.marks) (hstarted : u'.started = u.started)
    (hshift : ∀ n, Shift (u.stand? n) (u'.stand? n)) : Ledger u' where
  sent := by
    rw [hsent, hlog]
    exact h.sent
  account n := by
    unfold returnsOf
    rw [hlog, hreturns]
    exact (h.account n).shift (hshift n)
  numbered n hn := by
    obtain ⟨hnone, hcalls⟩ := h.numbered n (hstarted ▸ hn)
    have hshift := hshift n
    rw [hnone] at hshift
    rw [hlog]
    refine ⟨?_, hcalls⟩
    generalize hst : u'.stand? n = st at hshift
    cases hshift <;> rfl

theorem le_started (h : Ledger u) {n : Nat} {st : Stand} (hn : u.stand? n = some st) :
    n ≤ u.started := by
  by_contra hlt
  cases hn.symm.trans (h.numbered n (not_le.mp hlt)).1

/-- Publish calls of one task do something, and it is at another stage then. -/
theorem book (h : Ledger u) {n : Nat} {st : Option Stand} {hs : List Handover} {ms : List Mark}
    (hlog : u'.log = u.log ++ hs) (hmarks : u'.marks = u.marks ++ ms)
    (hstand : u'.stand? = Function.update u.stand? n st) (hstarted : u'.started = u.started)
    (hn : n ≤ u.started)
    (hown : ∀ m, m ≠ n → callsOf m hs = [] ∧ returnsOf m ms = [] ∧ acceptancesOf m hs = [])
    (hsent : Session.sent ms = ((calls hs).filter PublishCall.stands).map PublishCall.message)
    (haccount : Account n st (callsOf n u.log ++ callsOf n hs)
      (returnsOf n u.marks ++ returnsOf n ms) (acceptancesOf n u.log ++ acceptancesOf n hs)) :
    Ledger u' where
  sent := by
    rw [hmarks, hlog, sent_append, calls_append, List.filter_append, List.map_append, h.sent, hsent]
  account m := by
    rw [hlog, hmarks, hstand, callsOf_append, returnsOf_append, acceptancesOf_append]
    by_cases hm : m = n
    · subst hm
      rw [Function.update_self]
      exact haccount
    · obtain ⟨hcalls, hreturns, hacceptances⟩ := hown m hm
      rw [Function.update_of_ne hm, hcalls, hreturns, hacceptances, List.append_nil,
        List.append_nil, List.append_nil]
      exact h.account m
  numbered m hm := by
    have hm : u.started < m := hstarted ▸ hm
    have hne : m ≠ n := by omega
    obtain ⟨hnone, hcalls⟩ := h.numbered m hm
    rw [hstand, hlog, callsOf_append, Function.update_of_ne hne, (hown m hne).1, hcalls]
    exact ⟨hnone, rfl⟩

theorem start (h : Ledger u) (job : Job) : Ledger (u.start job) where
  sent := h.sent
  account n := by
    show Account n ((u.stand? n).or (if n = u.started + 1 then some (.fresh job) else none))
      (callsOf n u.log) (returnsOf n u.marks) (acceptancesOf n u.log)
    have haccount := h.account n
    by_cases hn : n = u.started + 1
    · obtain ⟨hnone, hcalls⟩ := h.numbered n (by omega)
      rw [hcalls] at haccount ⊢
      obtain ⟨hreturns, hacceptances⟩ := haccount.eq_nil_of_calls
      rw [hnone, hreturns, hacceptances, if_pos hn]
      exact .idle (by simp)
    · rw [if_neg hn, Option.or_none]
      exact haccount
  numbered n hn := by
    have hn : u.started + 1 < n := hn
    obtain ⟨hnone, hcalls⟩ := h.numbered n (by omega)
    refine ⟨?_, hcalls⟩
    show (u.stand? n).or (if n = u.started + 1 then some (.fresh job) else none) = none
    rw [hnone, if_neg (by omega), Option.or_none]

theorem refuse (h : Ledger u) {n : Nat} {job : Job} (hn : u.stand? n = some (.fresh job))
    (p : Publication) (hc : u.connection.isConnected = false) :
    Ledger (((u.begin n p).mark [.returned n (.error .notConnected)]).leave n) := by
  have haccount := h.account n
  rw [hn] at haccount
  obtain ⟨hcalls, hreturns, hacceptances⟩ := haccount.eq_nil_of_fresh
  have hlog : u.log ++ [.begun n p u.connection.isConnected] = u.log ++ [.begun n p false] := by
    rw [hc]
  refine h.book hlog rfl rfl rfl (h.le_started hn) (fun m hm => ⟨?_, ?_, rfl⟩) rfl ?_
  · rw [callsOf_begun, if_neg hm.symm]
  · rw [returnsOf_returned, if_neg hm.symm]
  · rw [hcalls, hreturns, hacceptances, callsOf_begun, returnsOf_returned, if_pos rfl, if_pos rfl]
    exact .refused p

theorem ask (h : Ledger u) {n : Nat} {job : Job} (hn : u.stand? n = some (.fresh job))
    (p : Publication) (hc : u.connection.isConnected = true) :
    Ledger (((u.begin n p).mark [.sent p]).put n .handing) := by
  have haccount := h.account n
  rw [hn] at haccount
  obtain ⟨hcalls, hreturns, hacceptances⟩ := haccount.eq_nil_of_fresh
  have hlog : u.log ++ [.begun n p u.connection.isConnected] = u.log ++ [.begun n p true] := by
    rw [hc]
  refine h.book hlog rfl rfl rfl (h.le_started hn) (fun m hm => ⟨?_, rfl, rfl⟩) rfl ?_
  · rw [callsOf_begun, if_neg hm.symm]
  · rw [hcalls, hreturns, hacceptances, callsOf_begun, if_pos rfl]
    exact .asked p

theorem accept (h : Ledger u) {n : Nat} (hn : u.stand? n = some .handing) :
    Ledger (((u.record [.accepted n]).mark [.returned n (.ok ())]).put n .racing) := by
  have haccount := h.account n
  rw [hn] at haccount
  obtain ⟨p, hcalls, hreturns, hacceptances⟩ := haccount.eq_of_handing
  refine h.book rfl rfl rfl rfl (h.le_started hn) (fun m hm => ⟨rfl, ?_, ?_⟩) rfl ?_
  · rw [returnsOf_returned, if_neg hm.symm]
  · rw [acceptancesOf_accepted, if_neg hm.symm]
  · rw [hcalls, hreturns, hacceptances, returnsOf_returned, acceptancesOf_accepted, if_pos rfl,
      if_pos rfl]
    exact .accepted p (Or.inr rfl)

theorem reject (h : Ledger u) {n : Nat} (hn : u.stand? n = some .handing) {e : PublishError}
    (he : e ≠ .notConnected) : Ledger ((u.mark [.returned n (.error e)]).leave n) := by
  have haccount := h.account n
  rw [hn] at haccount
  obtain ⟨p, hcalls, hreturns, hacceptances⟩ := haccount.eq_of_handing
  refine h.book (List.append_nil _).symm rfl rfl rfl (h.le_started hn)
    (fun m hm => ⟨rfl, ?_, rfl⟩) rfl ?_
  · rw [returnsOf_returned, if_neg hm.symm]
  · rw [hcalls, hreturns, hacceptances, returnsOf_returned, if_pos rfl]
    exact .failed p e he

theorem perform (h : Ledger u) (es : List Connection.Effect) (c : Connection) :
    Ledger (u.perform es c) :=
  h.keep rfl (sent_perform u es c) (returns_perform u es c) rfl (fun _ => .stay _)

theorem mark (h : Ledger u) {ms : List Mark} (hsent : Session.sent ms = [])
    (hreturns : returns ms = []) : Ledger (u.mark ms) := by
  refine h.keep rfl ?_ ?_ rfl (fun _ => .stay _)
  · exact (sent_append u.marks ms).trans (by rw [hsent, List.append_nil])
  · exact (returns_append u.marks ms).trans (by rw [hreturns, List.append_nil])

theorem leave (h : Ledger u) (n : Nat) : Ledger (u.leave n) :=
  h.keep rfl rfl rfl rfl (shift_leave u n)

theorem take (h : Ledger u) (p : Polled) (es : List Connection.Effect) (c : Connection) :
    Ledger (u.take p es c) :=
  h.keep rfl (sent_take u p es c) (returns_take u p es c) rfl (fun _ => .stay _)

theorem reach (h : Ledger u) (n : Nat) (point : Connection.ConnectPoint) :
    Ledger (u.reach n point) := by
  cases point with
  | polling => exact h
  | connected =>
    have hemployed : Ledger (u.employ u.connection.worker .fresh) :=
      h.keep rfl rfl rfl rfl (fun _ => .stay _)
    exact hemployed.leave n
  | failed e => exact h.leave n

theorem step (hstep : Step direct u u') (h : Ledger u) : Ledger u' := by
  cases hstep with
  | start job => exact h.start job
  | leave n => exact h.leave n
  | message topic payload hd => exact h.mark rfl rfl
  | connect n c es hn hc =>
    have hperformed := h.perform es c
    exact hperformed.keep rfl rfl rfl rfl (shift_put hn (by simp))
  | connectTook n p hn => exact (h.take p _ _).reach n _
  | workerTook w p limit hw hs =>
    have htook := h.take p (u.connection.workerPolled w p).2.1 (u.connection.workerPolled w p).1
    exact htook.keep rfl rfl rfl rfl (fun _ => .stay _)
  | wake | rest => exact h.keep rfl rfl rfl rfl (fun _ => .stay _)
  | dismiss hs =>
    have hperformed := h.perform u.connection.workerStopped.2 u.connection.workerStopped.1
    exact hperformed.keep rfl rfl rfl rfl (fun _ => .stay _)
  | request n hn => exact h.keep rfl rfl rfl rfl (shift_put hn (by simp))
  | finish n hn => exact ((h.perform _ _).leave n).mark rfl rfl
  | refuse n job p hn hc => exact h.refuse hn p hc
  | ask n job p hn hc => exact h.ask hn p hc
  | accept n hn => exact h.accept hn
  | reject n e hn he => exact h.reject hn he

theorem new {σ : Type} (hub : Hub σ) : Ledger ((Session.new hub).uplink []) where
  sent := rfl
  account n := .idle (by simp [Session.uplink, Session.new, Session.task?])
  numbered n _ := ⟨rfl, rfl⟩

theorem steps (hsteps : Steps direct u u') (h : Ledger u) : Ledger u' := by
  induction hsteps with
  | refl => exact h
  | tail _ hstep ih => exact ih.step hstep

/-! ## Reading a ledger -/

theorem nodup_of_filter {α : Type} (f : α → Nat) (l : List α)
    (h : ∀ n, (l.filter (f · = n)).length ≤ 1) : (l.map f).Nodup := by
  refine List.nodup_iff_count_le_one.mpr fun n => ?_
  rw [List.count, List.countP_map, List.countP_eq_length_filter]
  exact h n

section
variable (h : Ledger u)
include h

theorem calls_nodup : ((calls u.log).map PublishCall.task).Nodup :=
  nodup_of_filter _ _ fun n => (h.account n).calls_length

theorem returns_nodup : ((returns u.marks).map Prod.fst).Nodup :=
  nodup_of_filter _ _ fun n => (h.account n).returns_length

theorem not_connected_iff (n : Nat) : (n, .error .notConnected) ∈ returns u.marks ↔
    ∃ c ∈ calls u.log, c.task = n ∧ c.stands = false := by
  have haccount := (h.account n).not_connected_iff
  simp only [callsOf, returnsOf, List.mem_filter, decide_true, and_true, decide_eq_true_eq,
    and_assoc] at haccount
  exact haccount

theorem ok_iff (n : Nat) : (n, .ok ()) ∈ returns u.marks ↔ n ∈ acceptances u.log := by
  have haccount := (h.account n).ok_iff
  simp only [acceptancesOf, returnsOf, List.mem_filter, decide_true, and_true] at haccount
  exact haccount

theorem stands_of_accepted {n : Nat} (hn : n ∈ acceptances u.log) :
    ∃ c ∈ calls u.log, c.task = n ∧ c.stands = true := by
  obtain ⟨c, hc, hstands⟩ := (h.account n).stands_of_accepted
    (List.mem_filter.mpr ⟨hn, decide_eq_true rfl⟩)
  obtain ⟨hc, htask⟩ := List.mem_filter.mp hc
  exact ⟨c, hc, of_decide_eq_true htask, hstands⟩

end

end Ledger

end Uplink

/-! ## Runs -/

variable {σ : Type}

open Connection (Status) in
/-- For every run of a connection that was not connected yet, as long as no shutdown is requested:

* it stands just when a poll of the link returned the broker's acceptance and none failed since;
* the states that others see, without repetitions, are the beginning of one of the courses;
* the client is asked to publish what the publish calls want that begin while it stands, in their
  order, and no task makes two of them;
* those that begin while it does not stand, and only those, end as not connected, and no call ends
  twice;
* a call succeeds just when the client accepted what it asked for. -/
theorem state_and_publish_calls {o : Connection.Options} {hub : Hub σ}
    (hc : hub.connection = { options := o }) {ms : List (Move σ)}
    (hs : ((new hub).after ms).hub.connection.stopping = false) :
    let s := (new hub).after ms
    let calls := calls ((new hub).log ms)
    (s.hub.connection.status = .connected ↔ ∃ before since,
      polls s.marks = before ++ .ok .connAck :: since ∧ ∀ p ∈ since, ∃ e, p = .ok e) ∧
    (∃ w ∈ Status.course.matches', (states s.marks).destutter (· ≠ ·) <+: w) ∧
    sent s.marks = (calls.filter PublishCall.stands).map PublishCall.message ∧
    (calls.map PublishCall.task).Nodup ∧
    (∀ n, (n, .error .notConnected) ∈ returns s.marks ↔
      ∃ c ∈ calls, c.task = n ∧ c.stands = false) ∧
    ((returns s.marks).map Prod.fst).Nodup ∧
    (∀ n, (n, .ok ()) ∈ returns s.marks ↔ n ∈ acceptances ((new hub).log ms)) ∧
    (∀ n ∈ acceptances ((new hub).log ms), ∃ c ∈ calls, c.task = n ∧ c.stands = true) := by
  intro s calls
  have hsteps : Uplink.Steps True ((new hub).uplink []) (s.uplink ((new hub).log ms)) :=
    uplink_after (new hub) ms [] (fun _ _ _ _ _ => trivial)
  have hstanding : (s.uplink ((new hub).log ms)).Standing :=
    Uplink.Standing.steps hsteps (.new hub) (.new hub) (.new hc) hs
  have hledger : (s.uplink ((new hub).log ms)).Ledger := (Uplink.Ledger.new hub).steps hsteps
  have hcourse : Status.Course (states s.marks) s.hub.connection.status := hstanding.course
  refine ⟨hstanding.accepted, ?_, hledger.sent, hledger.calls_nodup, hledger.not_connected_iff,
    hledger.returns_nodup, hledger.ok_iff, fun n hn => hledger.stands_of_accepted hn⟩
  rw [List.destutter_of_isChain _ _ hcourse.isChain]
  exact Status.exists_course hcourse.mem

/-- Of three messages the first one comes too early, and the third one after the connection is
lost. -/
theorem state_and_publish_calls_outage :
    let p : Publication := ⟨"t", .atLeastOnce, false, [1]⟩
    let ms := trialMoves [.start (.publish p) none, .resume (.task 1), .start .connect none,
      .feed [.ok .connAck], .resume (.task 2), .start (.publish p) none, .resume (.task 3),
      .feed [.error (.connection "lost")], .resume .worker, .start (.publish p) none,
      .resume (.task 4)]
    let s := (new idleHub).after ms
    s.hub.connection.status ≠ .connected ∧ sent s.marks = [p] ∧
      (1, .error .notConnected) ∈ returns s.marks ∧ (3, .ok ()) ∈ returns s.marks ∧
      (4, .error .notConnected) ∈ returns s.marks := by
  intro p ms
  dsimp only
  have hcalls : calls ((new idleHub).log ms) = [⟨1, p, false⟩, ⟨3, p, true⟩, ⟨4, p, false⟩] := by
    cbv
  have hacceptances : acceptances ((new idleHub).log ms) = [3] := by cbv
  have hpolls : polls ((new idleHub).after ms).marks =
      [.ok .connAck, .error (.connection "lost")] := by decide +kernel
  obtain ⟨hstands, -, hsent, -, hrefused, -, hok, -⟩ := state_and_publish_calls
    (rfl : idleHub.connection = { options := idleHub.connection.options })
    (by decide +kernel : ((new idleHub).after ms).hub.connection.stopping = false)
  rw [hcalls] at hsent hrefused
  rw [hpolls] at hstands
  refine ⟨fun h => Accepted.not_error [.ok .connAck] _ (hstands.mp h), hsent,
    (hrefused 1).mpr ⟨_, List.mem_cons_self, rfl, rfl⟩, (hok 3).mpr ?_, (hrefused 4).mpr ?_⟩
  · rw [hacceptances]
    exact List.mem_cons_self
  · exact ⟨⟨4, p, false⟩, by simp, rfl, rfl⟩

end DeviceHub.Session
