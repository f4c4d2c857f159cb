import Mathlib.Computability.RegularExpressions
import DeviceHub.Proofs.Session.Traffic

/-!
# Whether the connection stands

As long as no shutdown is requested, the state that others see tells who holds the link and what the
polls returned.

* `Status.Next`, `Status.course`   which state comes after which, and the courses that states take;
* `Accepted`                       the broker accepted, and no error came since;
* `Uplink.Agrees`                  who holds the link in a state of the connection;
* `Uplink.Standing`                the invariant, with `Standing.step` and `Standing.steps`.
-/

namespace DeviceHub

namespace Connection.Status

open RegularExpression

/-- which state comes after which, as long as no shutdown is requested -/
inductive Next : Status → Status → Prop
  | attempt : Next .disconnected .connecting
  | fail : Next .connecting .disconnected
  | accept : Next .connecting .connected
  | lose : Next .connected .reconnecting
  | regain : Next .reconnecting .connected

/-- calls to connect that fail -/
def failures : RegularExpression Status :=
  char disconnected * star (char connecting * char disconnected)

/-- the courses of the states, up to a connection that stands -/
def course : RegularExpression Status :=
  failures * (char connecting * char connected) * star (char reconnecting * char connected)

/-- the courses of the states up to a state -/
def courseTo : Status → RegularExpression Status
  | .disconnected => failures
  | .connecting => failures * char connecting
  | .connected => course
  | .reconnecting => course * char reconnecting

theorem append_mem_star {α : Type} {P Q : RegularExpression α} {x y : List α}
    (hx : x ∈ (P * star Q).matches') (hy : y ∈ Q.matches') : x ++ y ∈ (P * star Q).matches' := by
  obtain ⟨p, hp, q, ⟨L, rfl, hL⟩, rfl⟩ := hx
  refine ⟨p, hp, L.flatten ++ y, ⟨L ++ [y], by simp, fun z hz => ?_⟩, (List.append_assoc ..).symm⟩
  rcases List.mem_append.mp hz with hz | hz
  · exact hL z hz
  · exact List.mem_singleton.mp hz ▸ hy

theorem append_mem_mul {α : Type} {P Q : RegularExpression α} {x y : List α}
    (hx : x ∈ P.matches') (hy : y ∈ Q.matches') : x ++ y ∈ (P * Q).matches' := ⟨x, hx, y, hy, rfl⟩

theorem pair_mem {α : Type} (a b : α) : [a, b] ∈ (char a * char b).matches' :=
  append_mem_mul (P := char a) (Q := char b) rfl rfl

theorem courseTo_next {s s' : Status} (h : Next s s') {x : List Status}
    (hx : x ∈ (courseTo s).matches') : x ++ [s'] ∈ (courseTo s').matches' := by
  cases h with
  | attempt => exact append_mem_mul (Q := char .connecting) hx rfl
  | lose => exact append_mem_mul (Q := char .reconnecting) hx rfl
  | fail =>
    obtain ⟨y, hy, z, rfl, rfl⟩ := hx
    rw [List.append_assoc]
    exact append_mem_star hy (pair_mem _ _)
  | regain =>
    obtain ⟨y, hy, z, rfl, rfl⟩ := hx
    rw [List.append_assoc]
    exact append_mem_star hy (pair_mem _ _)
  | accept =>
    obtain ⟨y, hy, z, rfl, rfl⟩ := hx
    rw [List.append_assoc]
    exact ⟨_, append_mem_mul hy (pair_mem _ _), [], Language.nil_mem_kstar _, List.append_nil _⟩

/-- Every course can go on to a connection that stands. -/
theorem exists_course {s : Status} {x : List Status} (hx : x ∈ (courseTo s).matches') :
    ∃ w ∈ course.matches', x <+: w := by
  cases s with
  | disconnected =>
    exact ⟨_, courseTo_next .accept (courseTo_next .attempt hx), by simp⟩
  | connecting => exact ⟨_, courseTo_next .accept hx, List.prefix_append _ _⟩
  | connected => exact ⟨x, hx, List.prefix_rfl⟩
  | reconnecting => exact ⟨_, courseTo_next .regain hx, List.prefix_append _ _⟩

/-- a course of states up to a state -/
inductive Course : List Status → Status → Prop
  | start : Course [.disconnected] .disconnected
  | next {x s s'} (hx : Course x s) (h : Next s s') : Course (x ++ [s']) s'

namespace Course

variable {x : List Status} {s : Status}

theorem mem (h : Course x s) : x ∈ (courseTo s).matches' := by
  induction h with
  | start => exact ⟨[.disconnected], rfl, [], Language.nil_mem_kstar _, rfl⟩
  | next _ hnext ih => exact courseTo_next hnext ih

theorem getLast? (h : Course x s) : x.getLast? = some s := by
  cases h with
  | start => rfl
  | next hx hnext => exact List.getLast?_concat

theorem isChain (h : Course x s) : x.IsChain (· ≠ ·) := by
  induction h with
  | start => exact List.isChain_singleton _
  | next hx hnext ih =>
    refine List.IsChain.append ih (List.isChain_singleton _) fun a ha b hb => ?_
    rw [hx.getLast?] at ha
    obtain rfl := Option.mem_some.mp ha
    obtain rfl := Option.mem_some.mp hb
    cases hnext <;> simp

end Course

end Connection.Status

namespace Session

open Connection.Status (Course Next)

/-! ## What the polls returned -/

/-- The broker accepted the connection, and no poll failed since. -/
def Accepted (ps : List Polled) : Prop :=
  ∃ before since, ps = before ++ .ok .connAck :: since ∧ ∀ p ∈ since, ∃ e, p = .ok e

namespace Accepted

theorem not_nil : ¬ Accepted [] := by
  rintro ⟨before, since, heq, -⟩
  exact List.append_ne_nil_of_right_ne_nil before (List.cons_ne_nil _ since) heq.symm

theorem connAck (ps : List Polled) : Accepted (ps ++ [.ok .connAck]) :=
  ⟨ps, [], rfl, fun _ hp => absurd hp List.not_mem_nil⟩

theorem not_error (ps : List Polled) (e : TransportError) : ¬ Accepted (ps ++ [.error e]) := by
  rintro ⟨before, since, heq, hsince⟩
  rcases since.eq_nil_or_concat with rfl | ⟨since, p, rfl⟩
  · cases (List.append_inj' heq rfl).2
  · rw [List.concat_eq_append] at heq hsince
    rw [← List.cons_append, ← List.append_assoc] at heq
    obtain rfl : Except.error e = p := by simpa using (List.append_inj' heq rfl).2
    obtain ⟨e', he⟩ := hsince _ (List.mem_append_right _ List.mem_cons_self)
    cases he

theorem append_ok_iff (ps : List Polled) {e : LinkEvent} (he : e ≠ .connAck) :
    Accepted (ps ++ [.ok e]) ↔ Accepted ps := by
  constructor
  · rintro ⟨before, since, heq, hsince⟩
    rcases since.eq_nil_or_concat with rfl | ⟨since, p, rfl⟩
    · exact absurd (by simpa using (List.append_inj' heq rfl).2) he
    · rw [List.concat_eq_append] at heq hsince
      rw [← List.cons_append, ← List.append_assoc] at heq
      exact ⟨before, since, (List.append_inj' heq rfl).1,
        fun q hq => hsince q (List.mem_append_left _ hq)⟩
  · rintro ⟨before, since, rfl, hsince⟩
    refine ⟨before, since ++ [.ok e], by simp, fun q hq => ?_⟩
    rcases List.mem_append.mp hq with hq | hq
    · exact hsince q hq
    · exact ⟨e, List.mem_singleton.mp hq⟩

end Accepted

/-! ## Marks of effects -/

def effectState? : Connection.Effect → Option Connection.Status
  | .become s => some s
  | _ => none

theorem states_append (ms ms' : List Mark) :
    states (ms ++ ms') = states ms ++ ms'.filterMap Mark.state? := by
  unfold states
  rw [List.filterMap_append, List.cons_append]

theorem states_effects (o : Connection.Options) (es : List Connection.Effect) :
    (es.flatMap (effectMarks o)).filterMap Mark.state? = es.filterMap effectState? := by
  have heffect (e : Connection.Effect) :
      (effectMarks o e).filterMap Mark.state? = (effectState? e).toList := by
    cases e with
    | subscribe =>
      refine List.filterMap_eq_nil_iff.mpr fun m hm => ?_
      obtain ⟨topic, -, rfl⟩ := List.mem_map.mp hm
      rfl
    | deliver | become => rfl
  rw [List.filterMap_flatMap, List.filterMap_eq_flatMap_toList]
  exact List.flatMap_congr fun e _ => heffect e

theorem filterMap_effects {α : Type} (f : Mark → Option α)
    (hmessage : ∀ topic payload, f (.message topic payload) = none)
    (hasked : ∀ topic qos, f (.asked topic qos) = none) (hstate : ∀ s, f (.state s) = none)
    (o : Connection.Options) (es : List Connection.Effect) :
    (es.flatMap (effectMarks o)).filterMap f = [] := by
  refine List.filterMap_eq_nil_iff.mpr fun m hm => ?_
  obtain ⟨e, -, hm⟩ := List.mem_flatMap.mp hm
  cases e with
  | subscribe =>
    obtain ⟨topic, -, rfl⟩ := List.mem_map.mp hm
    exact hasked topic _
  | deliver topic payload =>
    obtain rfl := List.mem_singleton.mp hm
    exact hmessage topic payload
  | become s =>
    obtain rfl := List.mem_singleton.mp hm
    exact hstate s

theorem polls_effects (o : Connection.Options) (es : List Connection.Effect) :
    polls (es.flatMap (effectMarks o)) = [] :=
  filterMap_effects _ (fun _ _ => rfl) (fun _ _ => rfl) (fun _ => rfl) o es

namespace Uplink

variable {direct : Prop} {u u' : Uplink}

theorem states_perform (u : Uplink) (es : List Connection.Effect) (c : Connection) :
    states (u.perform es c).marks = states u.marks ++ es.filterMap effectState? := by
  show states (u.marks ++ es.flatMap (effectMarks u.connection.options)) = _
  rw [states_append, states_effects]

theorem polls_perform (u : Uplink) (es : List Connection.Effect) (c : Connection) :
    polls (u.perform es c).marks = polls u.marks := by
  show polls (u.marks ++ es.flatMap (effectMarks u.connection.options)) = _
  rw [polls_append, polls_effects, List.append_nil]

theorem states_take (u : Uplink) (p : Polled) (es : List Connection.Effect) (c : Connection) :
    states (u.take p es c).marks = states u.marks ++ es.filterMap effectState? := by
  unfold take
  rw [states_perform]
  show states (u.marks ++ [.took p]) ++ _ = _
  rw [states_append]
  exact congrArg (· ++ _) (List.append_nil _)

theorem polls_take (u : Uplink) (p : Polled) (es : List Connection.Effect) (c : Connection) :
    polls (u.take p es c).marks = polls u.marks ++ [p] := by
  unfold take
  rw [polls_perform]
  exact polls_append u.marks [.took p]

/-! ## Shutdowns -/

/-- a task that waits for the worker's end requested a shutdown -/
def Waits (u : Uplink) : Prop := ∀ n, u.stand? n = some .joining → u.connection.stopping = true

theorem connectPolled_stopping (c : Connection) (p : Polled) :
    (c.connectPolled p).1.stopping = c.stopping := by
  rcases p with e | (_ | _ | _) <;> rfl

theorem connect_ok {c c' : Connection} {es : List Connection.Effect}
    (h : c.connect = .ok (c', es)) : c.linkHome = true ∧
      c' = { c with linkHome := false, status := .connecting } ∧ es = [.become .connecting] := by
  unfold Connection.connect at h
  split at h
  · rename_i hhome
    cases h
    exact ⟨hhome, rfl, rfl⟩
  · cases h

theorem Step.stopping (hstep : Step direct u u') (h : u.connection.stopping = true) :
    u'.connection.stopping = true := by
  cases hstep with
  | connect n c es hn hc =>
    obtain ⟨-, rfl, -⟩ := connect_ok hc
    exact h
  | connectTook n p hn =>
    have htook := (connectPolled_stopping u.connection p).trans h
    unfold Uplink.connectTook Uplink.reach
    simp only
    split <;> exact htook
  | workerTook w p limit hw hs => exact (u.connection.workerPolled_stopping w p).trans h
  | request => rfl
  | _ => exact h

namespace Waits

theorem step (hstep : Step direct u u') (h : Waits u) : Waits u' := by
  intro n hn
  refine (?_ : u'.connection.stopping = true ∨ u.stand? n = some .joining).elim id
    fun hold => hstep.stopping (h n hold)
  cases hstep with
  | start job => exact Or.inr (stand?_of_start hn (by simp))
  | connectTook m p =>
    unfold connectTook reach at hn
    simp only at hn
    split at hn
    · exact Or.inr hn
    · exact Or.inr (stand?_of_leave hn).1
    · exact Or.inr (stand?_of_leave hn).1
  | request => exact Or.inl rfl
  | leave | finish | refuse | reject => exact Or.inr (stand?_of_leave hn).1
  | connect | ask | accept => exact Or.inr (stand?_of_put hn (by simp))
  | message | wake | workerTook | rest | dismiss => exact Or.inr hn

theorem new {σ : Type} (hub : Hub σ) : Waits ((Session.new hub).uplink []) :=
  fun n hn => by cases hn

end Waits

/-! ## Who holds the link -/

def point? (u : Uplink) : Option Connection.WorkerPoint := u.worker.map (·.1.point)

theorem point?_of_worker {w : Connection.Worker} {stage : WorkerStage}
    (hw : u.worker = some (w, stage)) : u.point? = some w.point := by
  unfold point?
  rw [hw]
  rfl

/-- who holds the link in a state of the connection -/
structure Agrees (u : Uplink) : Prop where
  home : u.connection.linkHome = true ↔ u.connection.status = .disconnected
  listens : u.point? = some .listening ↔ u.connection.status = .connected
  attempts : (∃ point, u.point? = some point ∧ point ≠ .listening) ↔
    u.connection.status = .reconnecting
  calls : ∀ n, u.stand? n = some .polling → u.connection.status = .connecting
  one : ∀ n m, u.stand? n = some .polling → u.stand? m = some .polling → n = m

namespace Agrees

theorem none_of_status (h : Agrees u) (hc : u.connection.status ≠ .connected)
    (hr : u.connection.status ≠ .reconnecting) : u.point? = none := by
  cases hp : u.point? with
  | none => rfl
  | some point =>
    by_cases hl : point = .listening
    · exact absurd (h.listens.mp (hl ▸ hp)) hc
    · exact absurd (h.attempts.mp ⟨point, hp, hl⟩) hr

theorem no_calls (h : Agrees u) (hc : u.connection.status ≠ .connecting) (n : Nat) :
    u.stand? n ≠ some .polling := fun hn => hc (h.calls n hn)

theorem of_home (hs : u.connection.status = .disconnected) (hhome : u.connection.linkHome = true)
    (hp : u.point? = none) (hcalls : ∀ n, u.stand? n ≠ some .polling) : Agrees u where
  home := iff_of_true hhome hs
  listens := iff_of_false (by simp [hp]) (by simp [hs])
  attempts := iff_of_false (by simp [hp]) (by simp [hs])
  calls n hn := absurd hn (hcalls n)
  one n m hn := absurd hn (hcalls n)

theorem of_call (hs : u.connection.status = .connecting) (hhome : u.connection.linkHome = false)
    (hp : u.point? = none)
    (hone : ∀ n m, u.stand? n = some .polling → u.stand? m = some .polling → n = m) : Agrees u where
  home := iff_of_false (by simp [hhome]) (by simp [hs])
  listens := iff_of_false (by simp [hp]) (by simp [hs])
  attempts := iff_of_false (by simp [hp]) (by simp [hs])
  calls _ _ := hs
  one := hone

theorem of_listening (hs : u.connection.status = .connected) (hhome : u.connection.linkHome = false)
    (hp : u.point? = some .listening) (hcalls : ∀ n, u.stand? n ≠ some .polling) : Agrees u where
  home := iff_of_false (by simp [hhome]) (by simp [hs])
  listens := iff_of_true hp hs
  attempts := iff_of_false (by simp [hp]) (by simp [hs])
  calls n hn := absurd hn (hcalls n)
  one n m hn := absurd hn (hcalls n)

theorem of_attempting (hs : u.connection.status = .reconnecting)
    (hhome : u.connection.linkHome = false) {point : Connection.WorkerPoint}
    (hp : u.point? = some point) (hl : point ≠ .listening)
    (hcalls : ∀ n, u.stand? n ≠ some .polling) : Agrees u where
  home := iff_of_false (by simp [hhome]) (by simp [hs])
  listens := iff_of_false (by simp [hp, hl]) (by simp [hs])
  attempts := iff_of_true ⟨point, hp, hl⟩ hs
  calls n hn := absurd hn (hcalls n)
  one n m hn := absurd hn (hcalls n)

theorem home_false (h : Agrees u) (hs : u.connection.status ≠ .disconnected) :
    u.connection.linkHome = false :=
  Bool.eq_false_iff.mpr fun hhome => hs (h.home.mp hhome)

end Agrees

/-- As long as no shutdown is requested: who holds the link, the states up to now, and what the
polls returned, in one state of the connection. -/
structure Standing (u : Uplink) : Prop where
  agrees : Agrees u
  course : Course (states u.marks) u.connection.status
  accepted : u.connection.status = .connected ↔ Accepted (polls u.marks)

namespace Standing

/-- The state of the connection stays, and who holds the link. -/
theorem keep (h : Standing u) (hc : u'.connection = u.connection) (hp : u'.point? = u.point?)
    (hstand : ∀ n, u'.stand? n = some .polling → u.stand? n = some .polling)
    (hstates : states u'.marks = states u.marks)
    (haccepted : u.connection.status = .connected ↔ Accepted (polls u'.marks)) : Standing u' where
  agrees := by
    obtain ⟨home, listens, attempts, calls, one⟩ := h.agrees
    rw [← hc] at home listens attempts calls
    rw [← hp] at listens attempts
    exact ⟨home, listens, attempts, fun n hn => calls n (hstand n hn),
      fun n m hn hm => one n m (hstand n hn) (hstand m hm)⟩
  course := by
    rw [hstates, hc]
    exact h.course
  accepted := by
    rw [hc]
    exact haccepted

theorem quiet (h : Standing u) (hc : u'.connection = u.connection) (hp : u'.point? = u.point?)
    (hstand : ∀ n, u'.stand? n = some .polling → u.stand? n = some .polling) {ms : List Mark}
    (hm : u'.marks = u.marks ++ ms) (hstates : ms.filterMap Mark.state? = [])
    (hpolls : polls ms = []) : Standing u' := by
  refine h.keep hc hp hstand ?_ ?_
  · rw [hm, states_append, hstates, List.append_nil]
  · rw [hm, polls_append, hpolls, List.append_nil]
    exact h.accepted

/-- The connection comes to the next state. -/
theorem move (h : Standing u) (hagrees : Agrees u')
    (hnext : Next u.connection.status u'.connection.status)
    (hstates : states u'.marks = states u.marks ++ [u'.connection.status])
    (haccepted : u'.connection.status = .connected ↔ Accepted (polls u'.marks)) : Standing u' where
  agrees := hagrees
  course := by
    rw [hstates]
    exact .next h.course hnext
  accepted := haccepted

theorem move_take (h : Standing u) {p : Polled} {es : List Connection.Effect} (hagrees : Agrees u')
    (hmarks : u'.marks = (u.take p es u.connection).marks)
    (hnext : Next u.connection.status u'.connection.status)
    (hes : es.filterMap effectState? = [u'.connection.status])
    (haccepted : u'.connection.status = .connected ↔ Accepted (polls u.marks ++ [p])) :
    Standing u' := by
  refine h.move hagrees hnext ?_ ?_
  · rw [hmarks, states_take, hes]
  · rw [hmarks, polls_take]
    exact haccepted

theorem take (h : Standing u) {p : Polled} {es : List Connection.Effect}
    (hes : es.filterMap effectState? = [])
    (haccepted : u.connection.status = .connected ↔ Accepted (polls u.marks ++ [p])) :
    Standing (u.take p es u.connection) := by
  refine h.keep rfl rfl (fun n hn => hn) ?_ ?_
  · rw [states_take, hes, List.append_nil]
  · rw [polls_take]
    exact haccepted

theorem take_ok (h : Standing u) {e : LinkEvent} (he : e ≠ .connAck) {es : List Connection.Effect}
    (hes : es.filterMap effectState? = []) : Standing (u.take (.ok e) es u.connection) := by
  refine h.take hes ?_
  rw [Accepted.append_ok_iff _ he]
  exact h.accepted

theorem take_publish (h : Standing u) (topic : String) (payload : List UInt8) :
    Standing (u.take (.ok (.publish topic payload)) [.deliver topic payload] u.connection) :=
  h.take_ok (by simp) rfl

theorem take_other (h : Standing u) : Standing (u.take (.ok .other) [] u.connection) :=
  h.take_ok (by simp) rfl

theorem connect (h : Standing u) {n : Nat} {c : Connection} {es : List Connection.Effect}
    (hc : u.connection.connect = .ok (c, es)) : Standing ((u.perform es c).put n .polling) := by
  obtain ⟨hhome, rfl, rfl⟩ := connect_ok hc
  have hstatus : u.connection.status = .disconnected := h.agrees.home.mp hhome
  have hpoint : u.point? = none := h.agrees.none_of_status (by simp [hstatus]) (by simp [hstatus])
  have hself {m : Nat} (hm : Function.update u.stand? n (some .polling) m = some .polling) :
      m = n := by
    by_contra hne
    rw [Function.update_of_ne hne] at hm
    exact h.agrees.no_calls (by simp [hstatus]) m hm
  have hrefused : ¬ Accepted (polls u.marks) := fun haccepted => by
    cases hstatus.symm.trans (h.accepted.mpr haccepted)
  rw [← polls_perform u [.become .connecting] u.connection] at hrefused
  refine h.move (.of_call rfl rfl hpoint ?_) ?_ (states_perform u _ u.connection)
    (iff_of_false Connection.Status.noConfusion hrefused)
  · intro k m hk hm
    exact (hself hk).trans (hself hm).symm
  · rw [hstatus]
    exact .attempt

theorem connectTook (h : Standing u) {n : Nat} (hn : u.stand? n = some .polling) (p : Polled) :
    Standing (u.connectTook n p) := by
  have hstatus : u.connection.status = .connecting := h.agrees.calls n hn
  have hpoint : u.point? = none := h.agrees.none_of_status (by simp [hstatus]) (by simp [hstatus])
  have hnone (m : Nat) : (u.leave n).stand? m ≠ some .polling := fun hm =>
    (stand?_of_leave hm).2 (h.agrees.one m n (stand?_of_leave hm).1 hn)
  rcases p with e | (_ | ⟨topic, payload⟩ | _)
  · have hrefused : ¬ Accepted (polls u.marks ++ [.error e]) := Accepted.not_error _ e
    refine h.move_take (.of_home rfl rfl hpoint hnone) rfl ?_ rfl
      (iff_of_false Connection.Status.noConfusion hrefused)
    rw [hstatus]
    exact .fail
  · have hhome : u.connection.linkHome = false := h.agrees.home_false (by simp [hstatus])
    refine h.move_take (.of_listening rfl hhome rfl hnone) rfl ?_ rfl
      (iff_of_true rfl (Accepted.connAck _))
    rw [hstatus]
    exact .accept
  · exact h.take_publish topic payload
  · exact h.take_other

theorem employ (h : Standing u) {w w' : Connection.Worker} {stage stage' : WorkerStage}
    (hw : u.worker = some (w, stage)) (hpoint : w'.point = w.point) :
    Standing (u.employ w' stage') := by
  refine h.quiet rfl ?_ (fun n hn => hn) (List.append_nil _).symm rfl rfl
  rw [point?_of_worker hw, ← hpoint]
  rfl

theorem employ_attempting (h : Standing u) (hs : u.connection.status = .reconnecting)
    {w : Connection.Worker} {stage : WorkerStage} (hl : w.point ≠ .listening) :
    Standing (u.employ w stage) where
  agrees := .of_attempting hs (h.agrees.home_false (by simp [hs])) rfl hl
    (h.agrees.no_calls (by simp [hs]))
  course := h.course
  accepted := h.accepted

theorem listened (h : Standing u) {w : Connection.Worker} {stage : WorkerStage}
    (hw : u.worker = some (w, stage)) (hpoint : w.point = .listening) (p : Polled) (limit : Nat) :
    Standing (u.workerTook w p limit) := by
  have hstatus : u.connection.status = .connected :=
    h.agrees.listens.mp (by rw [point?_of_worker hw, hpoint])
  have hhome : u.connection.linkHome = false := h.agrees.home_false (by simp [hstatus])
  have hnone : ∀ n, u.stand? n ≠ some .polling := h.agrees.no_calls (by simp [hstatus])
  unfold workerTook
  rw [workerPolled_of_listening _ hpoint]
  rcases p with e | (_ | ⟨topic, payload⟩ | _)
  · have hrefused : ¬ Accepted (polls u.marks ++ [.error e]) := Accepted.not_error _ e
    refine h.move_take (.of_attempting rfl hhome rfl Connection.WorkerPoint.noConfusion hnone) rfl
      ?_ rfl (iff_of_false Connection.Status.noConfusion hrefused)
    rw [hstatus]
    exact .lose
  · have htook : Standing (u.take (.ok .connAck) [.subscribe] u.connection) :=
      h.take rfl (iff_of_true hstatus (Accepted.connAck _))
    exact htook.employ hw rfl
  · exact (h.take_publish topic payload).employ hw rfl
  · exact h.take_other.employ hw rfl

theorem attempted (h : Standing u) {w : Connection.Worker} {stage : WorkerStage}
    (hw : u.worker = some (w, stage)) (hpoint : w.point = .attempting) (p : Polled) (limit : Nat) :
    Standing (u.workerTook w p limit) := by
  have hstatus : u.connection.status = .reconnecting :=
    h.agrees.attempts.mp ⟨w.point, point?_of_worker hw, by simp [hpoint]⟩
  have hhome : u.connection.linkHome = false := h.agrees.home_false (by simp [hstatus])
  have hnone : ∀ n, u.stand? n ≠ some .polling := h.agrees.no_calls (by simp [hstatus])
  unfold workerTook
  rw [workerPolled_of_attempting _ hpoint]
  rcases p with e | (_ | ⟨topic, payload⟩ | _)
  · have hrefused : ¬ Accepted (polls u.marks ++ [.error e]) := Accepted.not_error _ e
    have htook : Standing (u.take (.error e) [] u.connection) :=
      h.take rfl (iff_of_false (by simp [hstatus]) hrefused)
    exact htook.employ_attempting hstatus Connection.WorkerPoint.noConfusion
  · refine h.move_take (.of_listening rfl hhome rfl hnone) rfl ?_ rfl
      (iff_of_true rfl (Accepted.connAck _))
    rw [hstatus]
    exact .regain
  · exact (h.take_publish topic payload).employ hw rfl
  · exact h.take_other.employ hw rfl

theorem step (hsuited : Suited u) (hwaits : Waits u) (hstep : Step direct u u')
    (hs : u'.connection.stopping = false) (h : Standing u) : Standing u' := by
  cases hstep with
  | start job =>
    have hstand (n : Nat) (hn : (u.start job).stand? n = some .polling) :
        u.stand? n = some .polling := stand?_of_start hn (by simp)
    exact h.quiet rfl rfl hstand (List.append_nil _).symm rfl rfl
  | leave n =>
    exact h.quiet rfl rfl (fun m hm => (stand?_of_leave hm).1) (List.append_nil _).symm rfl rfl
  | message topic payload hd => exact h.quiet rfl rfl (fun n hn => hn) rfl rfl rfl
  | connect n c es hn hc => exact h.connect hc
  | connectTook n p hn => exact h.connectTook hn p
  | wake w hw hs =>
    exact h.quiet rfl (point?_of_worker hw).symm (fun n hn => hn) (List.append_nil _).symm rfl rfl
  | workerTook w p limit hw hs =>
    cases hpoint : w.point with
    | listening => exact h.listened hw hpoint p limit
    | attempting => exact h.attempted hw hpoint p limit
    | pausing delay => exact absurd hpoint (hsuited w .polling hw delay)
  | rest w limit hw hs =>
    obtain ⟨delay, hpoint⟩ := hsuited w _ hw
    refine h.employ_attempting ?_ Connection.WorkerPoint.noConfusion
    exact h.agrees.attempts.mp ⟨w.point, point?_of_worker hw, by simp [hpoint]⟩
  | dismiss hstop => cases hs.symm.trans hstop
  | request n hn => cases hs
  | finish n hn => cases hs.symm.trans (hwaits n hn)
  | refuse | reject => exact h.quiet rfl rfl (fun m hm => (stand?_of_leave hm).1) rfl rfl rfl
  | ask | accept => exact h.quiet rfl rfl (fun m hm => stand?_of_put hm (by simp)) rfl rfl rfl

theorem new {σ : Type} {o : Connection.Options} {hub : Hub σ}
    (hc : hub.connection = { options := o }) : Standing ((Session.new hub).uplink []) where
  agrees := by
    have hconnection : ((Session.new hub).uplink []).connection = { options := o } := hc
    exact .of_home (by rw [hconnection]) (by rw [hconnection]) rfl (fun n hn => by cases hn)
  course := by
    show Course [.disconnected] hub.connection.status
    rw [hc]
    exact .start
  accepted := by
    show hub.connection.status = _ ↔ Accepted []
    rw [hc]
    exact iff_of_false Connection.Status.noConfusion Accepted.not_nil

theorem steps (hsteps : Steps direct u u') (hsuited : Suited u) (hwaits : Waits u)
    (h : Standing u) (hs : u'.connection.stopping = false) : Standing u' := by
  suffices hall : Suited u' ∧ Waits u' ∧ (u'.connection.stopping = false → Standing u') from
    hall.2.2 hs
  clear hs
  induction hsteps with
  | refl => exact ⟨hsuited, hwaits, fun _ => h⟩
  | tail _ hstep ih =>
    obtain ⟨hsuited, hwaits, hstanding⟩ := ih
    refine ⟨hsuited.step hstep, hwaits.step hstep, fun hs => ?_⟩
    refine (hstanding ?_).step hsuited hwaits hstep hs
    by_contra hstopping
    rw [hstep.stopping (Bool.eq_true_of_not_eq_false hstopping)] at hs
    cases hs

end Standing

end Uplink

end Session

end DeviceHub
