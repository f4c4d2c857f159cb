import DeviceHub.Proofs.Session.InFlight
import DeviceHub.Proofs.Session.Uplink.Steps

/-!
# What comes of a poll of the link

* `answers`, `traffic`   what comes of the result of a poll, and the marks that show it;
* `PollsAnswered`        every poll is followed at once by what comes of it;
* `Uplink.Suited`        the worker rests while it pauses, and only then;
* `Uplink.Prompt`        the polls of an uplink are answered, with `Prompt.step` and `Prompt.steps`;
* `link_traffic`         what is delivered and subscribed in a run.
-/

namespace DeviceHub

def Polled.message? : Polled → Option (String × List UInt8)
  | .ok (.publish topic payload) => some (topic, payload)
  | _ => none

def Connection.Options.pass (o : Connection.Options) : List (String × Qos) :=
  o.subscriptions.map fun topic => (topic, o.subscribeQos)

/-- what is subscribed after a poll -/
def Connection.Options.subscribedAt (o : Connection.Options) : Polled → List (String × Qos)
  | .ok .connAck => o.pass
  | _ => []

namespace Session

variable {o : Connection.Options}

def answers (o : Connection.Options) : Polled → List Mark
  | .ok .connAck => o.pass.map fun e => .asked e.1 e.2
  | .ok (.publish topic payload) => [.message topic payload]
  | _ => []

def Mark.isTraffic : Mark → Bool
  | .took _ | .message .. | .asked .. => true
  | _ => false

def traffic (ms : List Mark) : List Mark := ms.filter Mark.isTraffic

/-- every poll is followed by what comes of it, and nothing else happens -/
def PollsAnswered (o : Connection.Options) (ms : List Mark) : Prop :=
  ms = (polls ms).flatMap fun p => .took p :: answers o p

/-! ## Lists of marks -/

theorem traffic_append (ms ms' : List Mark) : traffic (ms ++ ms') = traffic ms ++ traffic ms' :=
  List.filter_append ..

theorem polls_append (ms ms' : List Mark) : polls (ms ++ ms') = polls ms ++ polls ms' :=
  List.filterMap_append ..

theorem filterMap_traffic {α : Type} (f : Mark → Option α)
    (hf : ∀ m : Mark, m.isTraffic = false → f m = none) (ms : List Mark) :
    (traffic ms).filterMap f = ms.filterMap f := by
  unfold traffic
  rw [List.filterMap_filter]
  refine List.filterMap_congr fun m _ => ?_
  cases hm : m.isTraffic with
  | false => exact (hf m hm).symm
  | true => rfl

theorem polls_traffic (ms : List Mark) : polls (traffic ms) = polls ms :=
  filterMap_traffic _ (fun m hm => by cases m <;> first | rfl | cases hm) ms

theorem polls_answers (p : Polled) : polls (answers o p) = [] := by
  refine List.filterMap_eq_nil_iff.mpr fun m hm => ?_
  rcases p with e | (_ | ⟨topic, payload⟩ | _)
  · cases hm
  · obtain ⟨e, -, rfl⟩ := List.mem_map.mp hm
    rfl
  · obtain rfl := List.mem_singleton.mp hm
    rfl
  · cases hm

namespace PollsAnswered

theorem nil : PollsAnswered o [] := rfl

theorem poll (p : Polled) : PollsAnswered o (.took p :: answers o p) := by
  show _ = (p :: polls (answers o p)).flatMap _
  rw [polls_answers, List.flatMap_singleton]

theorem append {ms ms' : List Mark} (h : PollsAnswered o ms) (h' : PollsAnswered o ms') :
    PollsAnswered o (ms ++ ms') := by
  show _ = (polls (ms ++ ms')).flatMap _
  rw [polls_append, List.flatMap_append, ← h, ← h']

end PollsAnswered

/-! ## Effects -/

theorem traffic_asked (es : List (String × Qos)) :
    traffic (es.map fun e => .asked e.1 e.2) = es.map fun e => .asked e.1 e.2 :=
  List.filter_eq_self.mpr fun m hm => by
    obtain ⟨e, -, rfl⟩ := List.mem_map.mp hm
    rfl

theorem traffic_subscribe (es : List Connection.Effect) :
    traffic ((.subscribe :: es).flatMap (effectMarks o)) =
      answers o (.ok .connAck) ++ traffic (es.flatMap (effectMarks o)) := by
  have hmarks : effectMarks o .subscribe = o.pass.map fun e => .asked e.1 e.2 := by
    unfold Connection.Options.pass
    rw [List.map_map]
    rfl
  rw [List.flatMap_cons, traffic_append, hmarks, traffic_asked]
  rfl

section
variable (c : Connection) {w : Connection.Worker}

theorem workerPolled_of_listening (hpoint : w.point = .listening) (p : Polled) :
    c.workerPolled w p = c.listeningPolled w p := by
  unfold Connection.workerPolled
  rw [hpoint]

theorem workerPolled_of_attempting (hpoint : w.point = .attempting) (p : Polled) :
    c.workerPolled w p = c.attemptingPolled w p := by
  unfold Connection.workerPolled
  rw [hpoint]

end

theorem traffic_connectPolled (c : Connection) (p : Polled) :
    traffic ((c.connectPolled p).2.1.flatMap (effectMarks o)) = answers o p := by
  rcases p with e | (_ | ⟨topic, payload⟩ | _)
  · rfl
  · show traffic ((.subscribe :: []).flatMap (effectMarks o)) = _
    rw [traffic_subscribe]
    exact List.append_nil _
  · rfl
  · rfl

theorem traffic_workerPolled (c : Connection) {w : Connection.Worker}
    (hw : ∀ delay, w.point ≠ .pausing delay) (p : Polled) :
    traffic ((c.workerPolled w p).2.1.flatMap (effectMarks o)) = answers o p := by
  unfold Connection.workerPolled
  cases hpoint : w.point with
  | pausing delay => exact absurd hpoint (hw delay)
  | listening | attempting =>
    rcases p with e | (_ | ⟨topic, payload⟩ | _)
    · rfl
    · show traffic ((.subscribe :: []).flatMap (effectMarks o)) = _
      rw [traffic_subscribe]
      exact List.append_nil _
    · rfl
    · rfl

theorem connectPolled_options (c : Connection) (p : Polled) :
    (c.connectPolled p).1.options = c.options := by
  rcases p with e | (_ | _ | _) <;> rfl

theorem workerPolled_options (c : Connection) (w : Connection.Worker) (p : Polled) :
    (c.workerPolled w p).1.options = c.options := by
  unfold Connection.workerPolled
  cases w.point <;> rcases p with e | (_ | _ | _) <;> rfl

/-! ## Uplinks -/

/-- In the moves the link alone hands messages to the handler. -/
def Linked {σ : Type} (ms : List (Move σ)) : Prop :=
  ∀ m ∈ ms, ∀ topic payload, m.2 ≠ .message topic payload

/-- The worker rests while it pauses, and only then. -/
def WorkerStage.Suits (w : Connection.Worker) : WorkerStage → Prop
  | .resting _ => ∃ delay, w.point = .pausing delay
  | _ => ∀ delay, w.point ≠ .pausing delay

theorem stageAfter_suits (w : Connection.Worker) (limit : Nat) : (stageAfter w limit).Suits w := by
  unfold stageAfter
  cases hpoint : w.point with
  | pausing delay => exact ⟨delay, hpoint⟩
  | listening | attempting =>
    intro delay
    rw [hpoint]
    simp

namespace Uplink

variable {direct : Prop} {u u' : Uplink}

/-- the stage of the worker suits it -/
def Suited (u : Uplink) : Prop := ∀ w stage, u.worker = some (w, stage) → stage.Suits w

namespace Suited

theorem employ {w : Connection.Worker} {stage : WorkerStage} (h : stage.Suits w) (u : Uplink) :
    Suited (u.employ w stage) := by
  intro w' stage' heq
  cases heq
  exact h

theorem reach (h : Suited u) (n : Nat) (point : Connection.ConnectPoint) :
    Suited (u.reach n point) := by
  cases point with
  | polling => exact h
  | connected =>
    have hfresh : WorkerStage.fresh.Suits u.connection.worker := fun delay => by
      simp [Connection.worker]
    exact employ hfresh u
  | failed e => exact h

theorem step (hstep : Step direct u u') (h : Suited u) : Suited u' := by
  cases hstep with
  | connectTook n p hn => exact reach (u := u.take p _ _) h n _
  | wake w hw hs =>
    have hpolls : WorkerStage.polling.Suits w := h w .fresh hw
    exact employ hpolls u
  | workerTook w p limit hw hs => exact employ (stageAfter_suits _ limit) _
  | rest w limit hw hs =>
    have hpolls : WorkerStage.polling.Suits (Connection.workerRested w) := fun delay => by
      simp [Connection.workerRested]
    exact employ hpolls u
  | dismiss hs => exact fun w stage hw => by cases hw
  | _ => exact h

theorem new {σ : Type} (hub : Hub σ) : Suited ((Session.new hub).uplink []) :=
  fun w stage hw => by cases hw

end Suited

/-- The options do not change, and the traffic is answered. -/
structure Prompt (o : Connection.Options) (u : Uplink) : Prop where
  options : u.connection.options = o
  answered : PollsAnswered o (traffic u.marks)

namespace Prompt

theorem mark (h : Prompt o u) (ms : List Mark) (hms : PollsAnswered o (traffic ms)) :
    Prompt o (u.mark ms) where
  options := h.options
  answered := by
    show PollsAnswered o (traffic (u.marks ++ ms))
    rw [traffic_append]
    exact h.answered.append hms

theorem perform (h : Prompt o u) (es : List Connection.Effect) {c : Connection}
    (hes : PollsAnswered o (traffic (es.flatMap (effectMarks o)))) (hc : c.options = o) :
    Prompt o (u.perform es c) where
  options := hc
  answered := by
    show PollsAnswered o (traffic (u.marks ++ es.flatMap (effectMarks u.connection.options)))
    rw [traffic_append, h.options]
    exact h.answered.append hes

theorem take (h : Prompt o u) {p : Polled} {es : List Connection.Effect} {c : Connection}
    (hes : traffic (es.flatMap (effectMarks o)) = answers o p) (hc : c.options = o) :
    Prompt o (u.take p es c) where
  options := hc
  answered := by
    have hmarks : (u.take p es c).marks =
        u.marks ++ [.took p] ++ es.flatMap (effectMarks u.connection.options) := rfl
    rw [hmarks, traffic_append, traffic_append, h.options, hes, List.append_assoc]
    exact h.answered.append (.poll p)

theorem of_same (h : Prompt o u) (hc : u'.connection.options = u.connection.options)
    (hm : u'.marks = u.marks) : Prompt o u' :=
  ⟨hc.trans h.options, hm ▸ h.answered⟩

theorem step (hsuited : Suited u) (hstep : Step False u u') (h : Prompt o u) : Prompt o u' := by
  cases hstep with
  | message topic payload hdirect => exact hdirect.elim
  | connect n c es hn hc =>
    unfold Connection.connect at hc
    split at hc
    · cases hc
      exact (h.perform [.become .connecting] .nil h.options).of_same rfl rfl
    · cases hc
  | connectTook n p hn =>
    have htook := h.take (traffic_connectPolled u.connection p)
      ((connectPolled_options u.connection p).trans h.options)
    unfold connectTook reach
    simp only
    split <;> exact htook.of_same rfl rfl
  | workerTook w p limit hw hs =>
    have htook := h.take (traffic_workerPolled u.connection (hsuited w .polling hw) p)
      ((workerPolled_options u.connection w p).trans h.options)
    exact htook.of_same rfl rfl
  | dismiss hs =>
    exact (h.perform u.connection.workerStopped.2 .nil h.options).of_same rfl rfl
  | finish n hn =>
    have hperformed := h.perform u.connection.finishShutdown.2 .nil h.options
    exact (hperformed.mark [.stopped] .nil).of_same rfl rfl
  | refuse n job p hn hc => exact (h.mark [_] .nil).of_same rfl rfl
  | ask n job p hn hc => exact (h.mark [_] .nil).of_same rfl rfl
  | accept n hn => exact (h.mark [_] .nil).of_same rfl rfl
  | reject n e hn he => exact (h.mark [_] .nil).of_same rfl rfl
  | start | leave | wake | rest | request => exact h.of_same rfl rfl

theorem new {σ : Type} {hub : Hub σ} (hc : hub.connection = { options := o }) :
    Prompt o ((Session.new hub).uplink []) :=
  ⟨congrArg Connection.options hc, .nil⟩

theorem steps (hsteps : Steps False u u') (hsuited : Suited u) (h : Prompt o u) : Prompt o u' := by
  suffices hboth : Suited u' ∧ Prompt o u' from hboth.2
  induction hsteps with
  | refl => exact ⟨hsuited, h⟩
  | tail _ hstep ih => exact ⟨ih.1.step hstep, ih.2.step ih.1 hstep⟩

end Prompt

end Uplink

/-! ## Runs -/

variable {σ : Type}

theorem messages_answers (p : Polled) :
    (Mark.took p :: answers o p).filterMap Mark.message? = p.message?.toList := by
  rcases p with e | (_ | ⟨topic, payload⟩ | _)
  · rfl
  · refine List.filterMap_eq_nil_iff.mpr fun m hm => ?_
    rcases List.mem_cons.mp hm with rfl | hm
    · rfl
    · obtain ⟨e, -, rfl⟩ := List.mem_map.mp hm
      rfl
  · rfl
  · rfl

theorem subscriptions_answers (p : Polled) :
    (Mark.took p :: answers o p).filterMap Mark.asked? = o.subscribedAt p := by
  rcases p with e | (_ | ⟨topic, payload⟩ | _)
  · rfl
  · show List.filterMap _ (o.pass.map _) = o.pass
    rw [List.filterMap_map]
    exact List.filterMap_some
  · rfl
  · rfl

/-- Let nothing but the link hand messages to the handler of a connection that was not connected
yet. Then in every run every poll of the link is followed at once by what comes of it, whoever
polls: so the messages that are handed over are those that the polls returned, in their order, each
once; and the client is asked to subscribe in complete passes, one for every acceptance by the broker
that a poll returned, whatever the client answers. -/
theorem link_traffic {hub : Hub σ} (hc : hub.connection = { options := o }) {ms : List (Move σ)}
    (hlinked : Linked ms) :
    let marks := ((new hub).after ms).marks
    (traffic marks = (polls marks).flatMap fun p => .took p :: answers o p) ∧
    messages marks = (polls marks).filterMap Polled.message? ∧
    subscriptions marks = (polls marks).flatMap o.subscribedAt := by
  intro marks
  have hanswered : PollsAnswered o (traffic marks) := (Uplink.Prompt.steps
    (uplink_after (new hub) ms [] hlinked) (.new hub) (.new hc)).answered
  unfold PollsAnswered at hanswered
  rw [polls_traffic] at hanswered
  refine ⟨hanswered, ?_, ?_⟩
  · have hmessages : (traffic marks).filterMap Mark.message? = messages marks :=
      filterMap_traffic _ (fun m hm => by cases m <;> first | rfl | cases hm) marks
    rw [← hmessages, hanswered, List.filterMap_flatMap]
    simp only [messages_answers]
    rw [List.filterMap_eq_flatMap_toList]
  · have hasked : (traffic marks).filterMap Mark.asked? = subscriptions marks :=
      filterMap_traffic _ (fun m hm => by cases m <;> first | rfl | cases hm) marks
    rw [← hasked, hanswered, List.filterMap_flatMap]
    simp only [subscriptions_answers]

def idleHub : Hub Unit :=
  { trialHub with connection := { options := { subscriptions := ["s", "t"] } } }

/-- A message comes before the broker accepts and another one while the worker connects again, and
the broker accepts once more than it has to. -/
theorem link_traffic_reconnect :
    let as : List Action := [.start .connect none, .feed [.ok (.publish "a" []), .ok .connAck],
      .resume (.task 1), .feed [.error (.connection "lost"), .ok (.publish "b" []), .ok .connAck,
      .ok .connAck], .resume .worker]
    let marks := ((new idleHub).after (trialMoves as)).marks
    let pass := [("s", Qos.atLeastOnce), ("t", Qos.atLeastOnce)]
    messages marks = [("a", []), ("b", [])] ∧ subscriptions marks = pass ++ pass ++ pass := by
  intro as marks pass
  have hpolls : polls marks = [.ok (.publish "a" []), .ok .connAck, .error (.connection "lost"),
    .ok (.publish "b" []), .ok .connAck, .ok .connAck] := by decide +kernel
  have hlinked : Linked (trialMoves as) := by simp [Linked, trialMoves, as]
  obtain ⟨-, hmessages, hsubscriptions⟩ := link_traffic
    (rfl : idleHub.connection = { options := idleHub.connection.options }) hlinked
  exact ⟨hmessages.trans (by rw [hpolls]; rfl), hsubscriptions.trans (by rw [hpolls]; rfl)⟩

end Session

end DeviceHub
