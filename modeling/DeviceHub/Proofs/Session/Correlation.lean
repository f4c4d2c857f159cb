import DeviceHub.Proofs.Session.Course
import DeviceHub.Proofs.Session.InFlight

/-!
# Every send follows its own course

* `Answered`          a call that handed over an acknowledgement answers a send: it is the first of
                      its id since the send was registered;
* `Desk.Followed`     slots and results are those of the courses, and answers come of such calls;
* `Followed.step`     every change of an orderly desk keeps this;
* `Followed.after`    so it holds after every run;
* `Answered.task_unique`  a call answers one send at most.
-/

namespace DeviceHub.Session

open Command (Course Turn IsAnswer)

/-! ## The call that answers a send -/

/-- The call after `older` hands over an acknowledgement, and a send gets its result from it: the
acknowledgement has the id of the send, and since the send was registered it is the first one. -/
structure Answered (h : History) (n : Nat) (send : Command.Send) (a : Message.Ack)
    (older : History) : Prop where
  call : ∃ newer time, h = newer ++ (time, .acknowledged a) :: older ∧
    ∃ time', (time', .resolved n (Command.Send.acknowledged a)) ∈ newer
  own : a.id = send.id
  named : a.id ≠ ""
  registered : (n, send) ∈ registrations older
  first : ∀ e ∈ since older n, ∀ b, e.2 = .acknowledged b → b.id ≠ send.id

theorem Answered.of_suffix {h g : History} {n : Nat} {send : Command.Send} {a : Message.Ack}
    {older : History} (ha : Answered h n send a older) (hs : h <:+ g) :
    Answered g n send a older := by
  obtain ⟨new, rfl⟩ := hs
  obtain ⟨newer, time, rfl, time', hres⟩ := ha.call
  exact { ha with call := ⟨new ++ newer, time, (List.append_assoc _ _ _).symm, time',
    List.mem_append_right _ hres⟩ }

theorem eq_of_suffixes {α : Type} {h l : List α} {x y : α} (hx : x :: l <:+ h) (hy : y :: l <:+ h) :
    x = y :=
  List.head_eq_of_cons_eq
    ((List.suffix_of_suffix_length_le hx hy (Nat.le_refl _)).eq_of_length rfl)

theorem Answered.task_unique {ids : Nat → String} {d : Desk} (ho : Desk.Orderly ids d)
    {n m : Nat} {send send' : Command.Send} {a b : Message.Ack} {older : History}
    (hn : Answered d.history n send a older) (hm : Answered d.history m send' b older) : n = m := by
  obtain ⟨newer, time, hn', -⟩ := hn.call
  obtain ⟨newer', time', hm', -⟩ := hm.call
  have hsuffix : (time, Happening.acknowledged a) :: older <:+ d.history := ⟨newer, hn'.symm⟩
  have hsuffix' : (time', Happening.acknowledged b) :: older <:+ d.history := ⟨newer', hm'.symm⟩
  have hcall := eq_of_suffixes hsuffix hsuffix'
  cases hcall
  have hold : older <:+ d.history := (List.suffix_cons _ _).trans hsuffix
  exact ho.task_unique (registrations_of_suffix hold hn.registered)
    (registrations_of_suffix hold hm.registered) (hn.own.symm.trans hm.own)

namespace Desk

variable {ids : Nat → String} {d : Desk}

/-- Slots and results are those of the courses. -/
structure Followed (d : Desk) : Prop where
  /-- what was received for a send lies in the slot of its course -/
  slots : ∀ n send, d.send? n = some send →
    (course d.history n send).slot = d.pending.received? send.id
  /-- the result of a send is that of its course -/
  results : ∀ e ∈ registrations d.history,
    (course d.history e.1 e.2).result = result? d.history e.1
  /-- a send gets one result -/
  resolved : ∀ time n r, (time, .resolved n r) ∈ d.history → result? d.history n = some r
  /-- the result that a task ends with is that of its send -/
  shown : ∀ time n r, (time, .ended n (.sent r)) ∈ d.history → result? d.history n = some r
  /-- a result that comes of an acknowledgement comes of the first one -/
  answered : ∀ n r, result? d.history n = some r → IsAnswer r →
    ∃ a send older, r = Command.Send.acknowledged a ∧ Answered d.history n send a older

namespace Followed

theorem new {σ : Type} (h : Hub σ) : Followed (Session.new h).desk where
  slots n send hs := by cases hs
  results e he := by cases he
  resolved time n r he := by cases he
  shown time n r he := by cases he
  answered n r hr := by cases hr

theorem result?_of_send (ho : Orderly ids d) {n : Nat} {t : Task} (ht : d.task? n = some t) :
    result? d.history n = none := by
  refine result?_of_not_hasEnded ?_
  cases hended : hasEnded d.history n with
  | false => rfl
  | true =>
    have hnone := (ho.gone n hended).2
    rw [ht] at hnone
    cases hnone

theorem of_tasks (h : Followed d) {d' : Desk} (hh : d'.history = d.history)
    (hp : ∀ n send, d'.send? n = some send → d.send? n = some send ∧
      d'.pending.received? send.id = d.pending.received? send.id) : Followed d' where
  slots n send hs := by
    obtain ⟨hold, hreceived⟩ := hp n send hs
    rw [hh, hreceived]
    exact h.slots n send hold
  results := hh.symm ▸ h.results
  resolved := hh.symm ▸ h.resolved
  shown := hh.symm ▸ h.shown
  answered := hh.symm ▸ h.answered

theorem grow (h : Followed d) {d' : Desk} {time : Nat} {e : Happening}
    (hh : d'.history = (time, e) :: d.history) (hresult : ∀ n, e.result? n = none)
    (hshown : ∀ n r, e = .ended n (.sent r) → result? d.history n = some r)
    (hslots : ∀ n send, d'.send? n = some send →
      (course d'.history n send).slot = d'.pending.received? send.id)
    (hresults : ∀ f ∈ registrations d'.history,
      (course d'.history f.1 f.2).result = result? d.history f.1) : Followed d' := by
  have hsame (n : Nat) : result? d'.history n = result? d.history n := by
    rw [hh, result?_cons, hresult n]
    rfl
  exact {
    slots := hslots
    results := fun f hf => (hresults f hf).trans (hsame f.1).symm
    resolved := fun t n r hmem => by
      rw [hsame]
      rw [hh] at hmem
      rcases List.mem_cons.mp hmem with heq | hmem
      · have hown : (Happening.resolved n r).result? n = some r := if_pos rfl
        rw [show e = .resolved n r from (congrArg Prod.snd heq).symm] at hresult
        cases hown.symm.trans (hresult n)
      · exact h.resolved t n r hmem
    shown := fun t n r hmem => by
      rw [hsame]
      rw [hh] at hmem
      rcases List.mem_cons.mp hmem with heq | hmem
      · cases heq
        exact hshown n r rfl
      · exact h.shown t n r hmem
    answered := fun n r hr hans => by
      obtain ⟨a, send, older, rfl, hanswered⟩ := h.answered n r ((hsame n).symm.trans hr) hans
      exact ⟨a, send, older, rfl, hanswered.of_suffix (hh ▸ List.suffix_cons _ _)⟩ }

theorem note (h : Followed d) (time : Nat) {e : Happening} (he : ∀ n id, e.Spares n id)
    (hr : e.registration? = none)
    (hshown : ∀ n r, e = .ended n (.sent r) → result? d.history n = some r) :
    Followed (d.note time e) := by
  have hcourse (n : Nat) (send : Command.Send) :
      course ((time, e) :: d.history) n send = course d.history n send :=
    course_spared (he n send.id)
  refine h.grow rfl (fun n => (he n "").result) hshown (fun n send hs => ?_) (fun f hf => ?_)
  · exact (congrArg Course.slot (hcourse n send)).trans (h.slots n send hs)
  · rw [show registrations (d.note time e).history = registrations d.history from
      List.filterMap_cons_none hr] at hf
    exact (congrArg Course.result (hcourse f.1 f.2)).trans (h.results f hf)

theorem remove (ho : Orderly ids d) (h : Followed d) (n : Nat) : Followed (d.remove n) := by
  refine h.of_tasks rfl (fun m send hm => ?_)
  rw [remove_send?] at hm
  split at hm
  · cases hm
  · rename_i hmn
    refine ⟨hm, ?_⟩
    have hne (own : Command.Send) (hn : d.send? n = some own) : own.id ≠ send.id := fun hid =>
      hmn (ho.task_unique (ho.registered m send hm) (ho.registered n own hn) hid.symm)
    rw [Command.Pending.received?_eq, Command.Pending.received?_eq, remove_slot? hne]

theorem acknowledge (ho : Orderly ids d) (h : Followed d) (a : Message.Ack) (time : Nat) :
    Followed (d.acknowledge a time) := by
  have hturn (n : Nat) (send : Command.Send) (hown : a.id = send.id ∧ a.id ≠ "") :
      course ((time, .acknowledged a) :: d.history) n send =
        (course d.history n send).turn send (.acknowledged a) :=
    course_turn rfl (if_pos hown)
  have hspared (n : Nat) (send : Command.Send) (hown : ¬ (a.id = send.id ∧ a.id ≠ "")) :
      course ((time, .acknowledged a) :: d.history) n send = course d.history n send :=
    course_spared ⟨rfl, if_neg hown, rfl⟩
  refine h.grow rfl (fun _ => rfl) (fun n r he => by cases he) (fun n send hs => ?_) (fun f hf => ?_)
  · show (course ((time, .acknowledged a) :: d.history) n send).slot =
      (d.pending.acknowledge a).received? send.id
    have hslot := h.slots n send hs
    by_cases hown : a.id = send.id ∧ a.id ≠ ""
    · have hopen : d.pending.contains a.id = true :=
        (ho.keys a.id).mpr ⟨n, send, hs, hown.1.symm⟩
      rw [hturn n send hown, ← hown.1, Command.Pending.received?_acknowledge _ a hown.2 hopen,
        hown.1, ← hslot]
      rfl
    · rw [hspared n send hown, hslot]
      by_cases hid : a.id = send.id
      · rw [Command.Pending.acknowledge_unnamed _ a (by tauto)]
      · rw [Command.Pending.received?_acknowledge_of_ne _ a hid]
  · rw [show registrations (d.acknowledge a time).history = registrations d.history from
      List.filterMap_cons_none rfl] at hf
    refine Eq.trans ?_ (h.results f hf)
    show (course ((time, .acknowledged a) :: d.history) f.1 f.2).result = _
    by_cases hown : a.id = f.2.id ∧ a.id ≠ ""
    · rw [hturn f.1 f.2 hown]
      rfl
    · rw [hspared f.1 f.2 hown]

theorem register (ho : Orderly ids d) (h : Followed d) {n : Nat} {t t' : Task}
    {send : Command.Send} (c : Message.Command) (time : Nat) (ht : d.task? n = some t)
    (hs : t.send? = none) (hs' : t'.send? = some send)
    (ho' : Orderly ids (d.register n t' send c time)) :
    Followed (d.register n t' send c time) := by
  have hcourse {m : Nat} (hm : m ≠ n) (send' : Command.Send) :
      course (d.register n t' send c time).history m send' = course d.history m send' :=
    course_spared ⟨decide_eq_false (Ne.symm hm), rfl, rfl⟩
  have hcourse' (send' : Command.Send) :
      course (d.register n t' send c time).history n send' = {} := course_registered _ _ _
  refine h.grow rfl (fun _ => rfl) (fun n r he => by cases he) (fun m send' hm => ?_)
    (fun f hf => ?_)
  · show _ = (d.pending.register send.id).received? send'.id
    rw [Command.Pending.received?_eq, Command.Pending.slot?_register]
    by_cases hmn : m = n
    · subst hmn
      obtain rfl : send = send' := Option.some.inj ((register_send? ht hs').symm.trans hm)
      rw [hcourse', if_pos rfl]
      rfl
    · rw [hcourse hmn]
      have hne : send.id ≠ send'.id := fun hid => hmn (ho'.task_unique (ho'.registered m send' hm)
        (ho'.registered n send (register_send? ht hs')) hid.symm)
      rw [if_neg hne, h.slots m send' (register_send?_ne hmn ▸ hm)]
      rfl
  · rw [registrations_register] at hf
    rcases List.mem_cons.mp hf with rfl | hf
    · rw [hcourse', result?_of_send ho ht]
    · rw [hcourse (ho.not_registered ht hs hf)]
      exact h.results f hf

theorem turn (ho : Orderly ids d) (h : Followed d) {n : Nat} {t : Task} {send : Command.Send}
    {e : Happening} {turn : Turn} (time : Nat) (ht : d.task? n = some t) (hs : t.send? = some send)
    (he : e.Turns n turn) (hslot : ((course d.history n send).turn send turn).slot =
      (course d.history n send).slot)
    (hresult : ((course d.history n send).turn send turn).result = none) :
    Followed (d.note time e) := by
  have hown : course ((time, e) :: d.history) n send =
      (course d.history n send).turn send turn := course_turn he.registers (he.own send.id)
  have hother {m : Nat} (hm : m ≠ n) (send' : Command.Send) :
      course ((time, e) :: d.history) m send' = course d.history m send' :=
    course_spared (he.others m hm send'.id)
  refine h.grow rfl he.result (fun m r hm => absurd hm (he.ended m _)) (fun m send' hm => ?_)
    (fun f hf => ?_)
  · refine Eq.trans ?_ (h.slots m send' hm)
    show (course ((time, e) :: d.history) m send').slot = _
    by_cases hmn : m = n
    · subst hmn
      obtain rfl : send = send' := Option.some.inj ((hs.symm.trans (send?_of_task ht).symm).trans hm)
      rw [hown, hslot]
    · rw [hother hmn]
  · rw [show registrations (d.note time e).history = registrations d.history from
      List.filterMap_cons_none he.registration] at hf
    show (course ((time, e) :: d.history) f.1 f.2).result = _
    by_cases hfn : f.1 = n
    · have hheld := ho.holds f hf t (hfn ▸ ht)
      obtain rfl : send = f.2 := Option.some.inj (hs.symm.trans hheld)
      rw [hfn, hown, hresult, result?_of_send ho ht]
    · rw [hother hfn]
      exact h.results f hf

theorem answered_ok (h : Followed d) {n : Nat} {a : Message.Ack}
    (hr : result? d.history n = some (.ok a)) :
    a.isIdentified = true ∧ ∃ send older, Answered d.history n send a older := by
  obtain ⟨b, send, older, hb, hanswered⟩ := h.answered n _ hr trivial
  unfold Command.Send.acknowledged at hb
  split at hb
  · rename_i hidentified
    cases hb
    exact ⟨hidentified, send, older, hanswered⟩
  · cases hb

theorem answered_invalid (h : Followed d) {n : Nat}
    (hr : result? d.history n = some (.error .invalidAck)) :
    ∃ a send older, a.isIdentified = false ∧ Answered d.history n send a older := by
  obtain ⟨b, send, older, hb, hanswered⟩ := h.answered n _ hr trivial
  unfold Command.Send.acknowledged at hb
  split at hb
  · cases hb
  · rename_i hidentified
    exact ⟨b, send, older, Bool.eq_false_iff.mpr hidentified, hanswered⟩

/-- What was received for a send that a task holds answers it, once the send has got its result. -/
theorem answered_of_received (ho : Orderly ids d) (h : Followed d) {n : Nat} {send : Command.Send}
    {a : Message.Ack} (hs : d.send? n = some send)
    (hreceived : d.pending.received? send.id = some a) {later : History} {time : Nat}
    (hresolved : (time, .resolved n (Command.Send.acknowledged a)) ∈ later) :
    ∃ older, Answered (later ++ d.history) n send a older := by
  obtain ⟨newer, u, older, hsplit, hid, hnamed, hopen, hfirst⟩ :=
    call_of_slot ((h.slots n send hs).trans hreceived)
  have hreg := ho.registered n send hs
  rw [hsplit] at hreg
  refine ⟨older, ⟨later ++ newer, u, ?_, time, List.mem_append_left _ hresolved⟩, hid, hnamed,
    registered_before hreg hopen rfl, hfirst⟩
  rw [hsplit, List.append_assoc]

/-- A send gets its result and ends, after a turn or at once; it is enough to look at its course. -/
theorem resolve (ho : Orderly ids d) (h : Followed d) {n : Nat} {t : Task}
    {r : Except Command.Error Message.Ack} {q : Result} {time : Nat} {new : History}
    (ht : d.task? n = some t) (hq : q.Shows r) (hl : Leads new n)
    (hnew : ∀ send, t.send? = some send → (course (new ++ d.history) n send).result = some r)
    (hans : IsAnswer r → ∃ a send, r = Command.Send.acknowledged a ∧ t.send? = some send ∧
      d.pending.received? send.id = some a) :
    Followed ({ d with history := new ++ d.history }.resolve n r q time) := by
  have hremoved := h.remove ho n
  set d' := { d with history := new ++ d.history }.resolve n r q time
  have hhistory : d'.history = ending n r q time (new ++ d.history) := rfl
  have hown : result? d'.history n = some r := result?_ending n r q time _
  have hresult {m : Nat} (hm : m ≠ n) : result? d'.history m = result? d.history m :=
    hl.result?_ending_of_ne r q time hm
  -- a result that is there is that of another send, and stays
  have hkept {m : Nat} {r' : Except Command.Error Message.Ack}
      (hr' : result? d.history m = some r') : result? d'.history m = some r' := by
    have hmn : m ≠ n := fun hmn => by
      rw [hmn, result?_of_send ho ht] at hr'
      cases hr'
    rw [hresult hmn]
    exact hr'
  exact {
    slots := fun m send hm => by
      have hm' : (d.remove n).send? m = some send := hm
      have hmn : m ≠ n := fun hmn => by
        rw [hmn, remove_send?, if_pos rfl] at hm'
        cases hm'
      rw [hhistory, hl.course_ending_of_ne r q time hmn send]
      exact hremoved.slots m send hm'
    results := fun f hf => by
      rw [hhistory, hl.registrations_ending r q time] at hf
      by_cases hfn : f.1 = n
      · rw [hfn, hown]
        exact hnew f.2 (ho.holds f hf t (hfn ▸ ht))
      · rw [hresult hfn, hhistory, hl.course_ending_of_ne r q time hfn f.2]
        exact h.results f hf
    resolved := fun u m r' hmem => by
      rcases hl.mem_resolved_ending hmem with ⟨rfl, rfl⟩ | hmem
      · exact hown
      · exact hkept (h.resolved u m r' hmem)
    shown := fun u m r' hmem => by
      rcases hl.mem_ended_ending hmem with ⟨rfl, heq⟩ | hmem
      · rcases hq with hq | hq
        · cases heq.trans hq
          exact hown
        · cases heq.trans hq
      · exact hkept (h.shown u m r' hmem)
    answered := fun m r' hr' hans' => by
      by_cases hmn : m = n
      · subst hmn
        obtain rfl : r = r' := Option.some.inj (hown.symm.trans hr')
        obtain ⟨a, send, rfl, hsend, hreceived⟩ := hans hans'
        have hresolved : (time, .resolved m (Command.Send.acknowledged a)) ∈
            (time, Happening.ended m q) :: (time, .resolved m (Command.Send.acknowledged a)) :: new :=
          List.mem_cons_of_mem _ List.mem_cons_self
        obtain ⟨older, hanswered⟩ := h.answered_of_received ho ((send?_of_task ht).trans hsend)
          hreceived hresolved
        exact ⟨a, send, older, rfl, hanswered⟩
      · obtain ⟨a, send, older, rfl, hanswered⟩ := h.answered m r' ((hresult hmn) ▸ hr') hans'
        exact ⟨a, send, older, rfl, hanswered.of_suffix
          ⟨(time, .ended n q) :: (time, .resolved n r) :: new, rfl⟩⟩ }

theorem refuse (ho : Orderly ids d) (h : Followed d) {n : Nat} {t : Task} {msg : String} {q : Result}
    (time : Nat) (ht : d.task? n = some t) (hs : t.send? = none)
    (hq : q.Shows (.error (.invalidRequest msg))) :
    Followed (d.resolve n (.error (.invalidRequest msg)) q time) :=
  h.resolve ho ht hq (.nil n) (fun send hsend => by rw [hs] at hsend; cases hsend)
    (fun hans => hans.elim)

theorem turn_resolve (ho : Orderly ids d) (h : Followed d) {n : Nat} {t : Task}
    {send : Command.Send} {e : Happening} {turn : Turn} {r : Except Command.Error Message.Ack}
    {q : Result} (time : Nat) (ht : d.task? n = some t) (hs : t.send? = some send)
    (he : e.Turns n turn) (hq : q.Shows r)
    (hresult : ((course d.history n send).turn send turn).result = some r)
    (hans : IsAnswer r → ∃ a, r = Command.Send.acknowledged a ∧
      d.pending.received? send.id = some a) :
    Followed ((d.note time e).resolve n r q time) := by
  refine h.resolve ho ht hq (he.leads time) (fun send' hs' => ?_) (fun hr => ?_)
  · obtain rfl : send = send' := Option.some.inj (hs.symm.trans hs')
    show (course ((time, e) :: d.history) n send).result = some r
    rw [course_turn he.registers (he.own send.id)]
    exact hresult
  · obtain ⟨a, hra, hreceived⟩ := hans hr
    exact ⟨a, send, hra, hs, hreceived⟩

theorem course_open (ho : Orderly ids d) (h : Followed d) {n : Nat} {t : Task}
    {send : Command.Send} (ht : d.task? n = some t) (hs : t.send? = some send) :
    (course d.history n send).result = none :=
  (h.results (n, send) (ho.registered n send ((send?_of_task ht).trans hs))).trans
    (result?_of_send ho ht)

theorem fail (ho : Orderly ids d) (h : Followed d) {n : Nat} {t : Task} {send : Command.Send}
    {e : PublishError} {q : Result} (time : Nat) (ht : d.task? n = some t)
    (hs : t.send? = some send) (hq : q.Shows (.error (.ofPublish e))) :
    Followed (d.fail n e q time) := by
  refine h.turn_resolve ho time ht hs (turns_handed n (.error e)) hq ?_
    (fun hans => absurd hans (Command.not_isAnswer_ofPublish e))
  show (course d.history n send).result.or _ = _
  rw [h.course_open ho ht hs]
  rfl

/-- What a look finds is what the course of the send says. -/
theorem turn_looked (ho : Orderly ids d) (h : Followed d) {n : Nat} {t : Task}
    {send : Command.Send} {cancelled expired : Bool} {now : Int64}
    {o : Option (Except Command.Error Message.Ack)} (ht : d.task? n = some t)
    (hs : t.send? = some send)
    (hr : send.race cancelled (d.pending.received? send.id) expired now = o) :
    ((course d.history n send).turn send (.looked cancelled expired now)).result = o := by
  show (course d.history n send).result.or
    (send.race cancelled (course d.history n send).slot expired now) = o
  rw [h.course_open ho ht hs, h.slots n send ((send?_of_task ht).trans hs), hr]
  rfl

theorem step (hinj : Function.Injective ids) {direct : Prop} {d d' : Desk}
    (hstep : Step ids direct d d') (ho : Orderly ids d) (h : Followed d) : Followed d' := by
  cases hstep with
  | note time e hq =>
    refine h.note time (fun n id => Happening.spares_of_quiet hq n id) ?_ ?_
    · cases e <;> first | rfl | cases hq
    · rintro n r rfl
      cases hq
  | start t ht =>
    exact h.of_tasks rfl (fun n send hs => ⟨send?_of_start ht hs, rfl⟩)
  | put n t t' ht hs =>
    exact h.of_tasks rfl (fun m send hm => ⟨(put_send? ht hs m) ▸ hm, rfl⟩)
  | close n hs => exact h.remove ho n
  | refuse n t msg q time ht hs hq => exact h.refuse ho time ht hs hq
  | register n t t' send c time ht hs hs' hid =>
    have ho' := ho.register hinj c time ht hs hs' hid
    exact (h.register ho c time ht hs hs' ho').note time (fun _ _ => ⟨rfl, rfl, rfl⟩) rfl
      (fun _ _ he => by cases he)
  | bounce n t t' send c e q time ht hs hs' hid hc hd hq =>
    -- the send is registered, and ends in the same step
    have ho' := ho.register hinj c time ht hs hs' hid
    exact (h.register ho c time ht hs hs' ho').fail ho' time (put_task?_self t' ht) hs' hq
  | acknowledge a time => exact h.acknowledge ho a time
  | deliver topic payload e a time =>
    have hreceived : Followed (d.note time (.received topic payload (.taken (some a)))) :=
      h.note time (fun _ _ => ⟨rfl, rfl, rfl⟩) rfl (fun _ _ he => by cases he)
    exact hreceived.acknowledge (ho.note time rfl (fun _ => rfl)) a time
  | hand n t t' send time ht hs hs' =>
    have hturn : Followed (d.note time (.handed n (.ok ()))) := by
      refine h.turn ho time ht hs (turns_handed n (.ok ())) rfl ?_
      show (course d.history n send).result.or none = none
      rw [h.course_open ho ht hs]
      rfl
    exact hturn.of_tasks rfl (fun m send' hm =>
      ⟨(put_send? (d := d.note time _) ht (hs'.trans hs.symm) m) ▸ hm, rfl⟩)
  | fail n t send e q time ht hs hq => exact h.fail ho time ht hs hq
  | look n t send cancelled expired now time ht hs hr =>
    exact h.turn ho time ht hs (turns_looked n cancelled expired now) rfl (h.turn_looked ho ht hs hr)
  | settle n t send cancelled expired now r q time ht hs hr hq =>
    refine h.turn_resolve ho time ht hs (turns_looked n cancelled expired now) hq
      (h.turn_looked ho ht hs hr) (fun hans => ?_)
    obtain ⟨a, hreceived, hra⟩ := Command.Send.race_isAnswer hr hans
    exact ⟨a, hra, hreceived⟩
  | drop n t time ht =>
    exact (h.remove ho n).note time (fun _ _ => ⟨rfl, rfl, rfl⟩) rfl (fun _ _ he => by cases he)

theorem steps (hinj : Function.Injective ids) {direct : Prop} {d d' : Desk}
    (hsteps : Steps ids direct d d') (ho : Orderly ids d) (h : Followed d) : Followed d' := by
  induction hsteps with
  | refl => exact h
  | tail hsteps hstep ih => exact ih.step hinj hstep (ho.steps hinj hsteps)

theorem after (hinj : Function.Injective ids) {σ : Type} {hub : Hub σ} (hp : hub.pending = {})
    {ms : List (Move σ)} (hids : IdsFrom ids ms) : Followed ((Session.new hub).after ms).desk := by
  have hsteps : Steps ids True (Session.new hub).desk ((Session.new hub).after ms).desk :=
    steps_after _ ms hids (fun _ _ _ _ => trivial)
  exact (Followed.new hub).steps hinj hsteps (Orderly.new hub hp)

end Followed

end Desk

end DeviceHub.Session
