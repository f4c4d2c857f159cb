import DeviceHub.Proofs.Backoff
import DeviceHub.Proofs.Session.Beside
import DeviceHub.Proofs.Session.Correlation
import DeviceHub.Proofs.Session.Publishing

/-!
# The verdict on a send

* `Session.At`        the stage of a task;
* `acksSince`         the acknowledgements for a send;
* `Ended`, `Looked`, `Returned`   how a send ends, what a look at its race comes to, and the end of its
                      publish call;
* `Made`, `Stands`    what was made of a send, and where it stands;
* `Follows`           what every action should do to a send;
* `Sound`             what holds of the states of a run.
-/

namespace DeviceHub.Session

variable {σ : Type}

/-! ## What becomes of a send -/

/-- a task is at a stage -/
def At (s : Session σ) (n : Nat) (stage : Stage) : Prop := (s.task? n).map Task.stage = some stage

/-- the acknowledgements with an id that were handed over since the send of a task was registered, the
first of them first -/
def acksSince (h : History) (n : Nat) (id : String) : List Message.Ack :=
  ((since h n).filterMap (·.2.own? id)).reverse

/-- A send returned a result at a time, and nothing else at any time. -/
structure Ended (s : Session σ) (n : Nat) (r : Except Command.Error Message.Ack) (time : Nat) :
    Prop where
  gone : s.task? n = none
  returned : ∀ time' r', (time', .ended n (.sent r')) ∈ s.history ↔ time' = time ∧ r' = r

/-- A send whose publish call succeeded at the time `since` looks at another time how its race stands. -/
inductive Looked (n : Nat) (send : Command.Send) (token : Option Bool) (since time : Nat)
    (s : Session σ) : Prop
  /-- The token has fired. -/
  | cancelled (fired : token = some true) (ended : Ended s n (.error .cancelled) time)
  /-- There is an acknowledgement. -/
  | acknowledged (a : Message.Ack) (unfired : token ≠ some true)
      (first : (acksSince s.history n send.id).head? = some a)
      (ended : Ended s n (if a.device = "" then .error .invalidAck else .ok a) time)
  /-- The time is over. -/
  | late (a : Message.Ack) (unfired : token ≠ some true)
      (unanswered : acksSince s.history n send.id = [])
      (elapsed : since * 1000000 + send.limit.nanos ≤ time * 1000000)
      (denied : a.ok = false) (code : a.code = some "TIMEOUT") (id : a.id = send.id)
      (device : a.device = send.device) (ended : Ended s n (.error (.timeout a send.limit)) time)
  /-- There is nothing yet, and the send waits on. -/
  | waits (unfired : token ≠ some true) (unanswered : acksSince s.history n send.id = [])
      (early : time * 1000000 < since * 1000000 + send.limit.nanos)
      (task : s.task? n = some ⟨.racing send (since + send.limit.ticks), token, false⟩)

/-- The publish call of a send returned at a time: an error ends the send at once, and otherwise it
looks at once how its race stands. -/
inductive Returned (n : Nat) (send : Command.Send) (token : Option Bool) (time : Nat)
    (s : Session σ) : Except PublishError Unit → Prop
  | failed (e : PublishError)
      (handed : ∀ time' q, (time', .handed n q) ∈ s.history ↔ time' = time ∧ q = .error e)
      (ended : Ended s n (.error (.ofPublish e)) time) : Returned n send token time s (.error e)
  | succeeded
      (handed : ∀ time' q, (time', .handed n q) ∈ s.history ↔ time' = time ∧ q = .ok ())
      (looked : Looked n send token time time s) : Returned n send token time s (.ok ())

/-- what a publish call returns that returns at once -/
def prompt? (s : Session σ) : Option (Except PublishError Unit) :=
  let c := s.hub.connection
  if c.isConnected then
    match s.client.publish? with
    | some q => some (PublishError.ofClient q)
    | none => if c.options.publishLimit.ticks = 0 then some (.error c.publishExpired) else none
  else some (.error .notConnected)

/-- A request was registered as a send and published, once. -/
structure Made (c : Config.Commands) (r : Command.Request) (n : Nat) (s : Session σ)
    (log : List Handover) (send : Command.Send) : Prop where
  named : ¬ r.Blank
  registered : (n, send) ∈ registrations s.history
  device : send.device = Text.trim r.device
  limit : send.limit = r.effectiveLimit c
  call : ∃ p stands, callsOf n log = [⟨n, p, stands⟩] ∧ r.Carries send.id p

/-- Where the send of a request stands. -/
inductive Stands (c : Config.Commands) (r : Command.Request) (n : Nat) (token : Option Bool)
    (s : Session σ) (log : List Handover) : Prop
  /-- Nothing of it has run. -/
  | fresh (task : s.task? n = some ⟨.fresh (.send r), token, false⟩)
      (unheard : ∀ e ∈ s.history, e.2.owner? ≠ some n) (uncalled : callsOf n log = [])
  /-- It was refused. -/
  | refused (msg : String) (time : Nat) (blank : r.Blank)
      (ended : Ended s n (.error (.invalidRequest msg)) time)
      (unregistered : ∀ send, (n, send) ∉ registrations s.history) (uncalled : callsOf n log = [])
  /-- Its publish call waits for the client. -/
  | publishes (send : Command.Send) (limit : Nat) (made : Made c r n s log send)
      (task : s.task? n = some ⟨.handing (some send) limit, token, false⟩)
      (unhanded : ∀ time q, (time, .handed n q) ∉ s.history)
  /-- Its publish call succeeded, and it waits for its acknowledgement. -/
  | races (send : Command.Send) (since : Nat) (made : Made c r n s log send)
      (task : s.task? n = some ⟨.racing send (since + send.limit.ticks), token, false⟩)
      (handed : ∀ time q, (time, .handed n q) ∈ s.history ↔ time = since ∧ q = .ok ())
  /-- It has ended. -/
  | ends (send : Command.Send) (result : Except Command.Error Message.Ack) (time : Nat)
      (made : Made c r n s log send) (ended : Ended s n result time)

/-- What an action does to the send of a request, whose caller does not give it up. -/
structure Follows (c : Config.Commands) (r : Command.Request) (n : Nat) (token : Option Bool)
    (x : Surroundings σ) (s : Session σ) (log : List Handover) (a : Action) : Prop where
  /-- A blank request is refused, and nothing is registered or published. -/
  refuses : a = .resume (.task n) → s.At n (.fresh (.send r)) → r.Blank →
    (∃ msg, Ended (s.act x a) n (.error (.invalidRequest msg)) s.clock) ∧
    registrations (s.act x a).history = registrations s.history ∧
    (s.act x a).hub.pending = s.hub.pending ∧ s.handovers x a = []
  /-- Any other request is registered and published, and its publish call returns or waits. -/
  begins : a = .resume (.task n) → s.At n (.fresh (.send r)) → ¬ r.Blank →
    ∃ send, Made c r n (s.act x a) (log ++ s.handovers x a) send ∧
      (∀ q, s.prompt? = some q → Returned n send token s.clock (s.act x a) q) ∧
      (s.prompt? = none → (s.act x a).At n
        (.handing (some send) (s.clock + s.hub.connection.options.publishLimit.ticks)))
  /-- A publish call returns what the client answers. -/
  answered : ∀ q send limit, a = .answer n q → s.At n (.handing (some send) limit) →
    Returned n send token s.clock (s.act x a) (PublishError.ofClient q)
  /-- A publish call that the client does not answer in time fails. -/
  expires : ∀ send limit, a = .resume (.task n) → s.At n (.handing (some send) limit) →
    limit ≤ s.clock →
    Returned n send token s.clock (s.act x a) (.error s.hub.connection.publishExpired)
  /-- A send that waits for its acknowledgement looks how its race stands whenever it is resumed. -/
  looks : ∀ send since, a = .resume (.task n) →
    s.At n (.racing send (since + send.limit.ticks)) →
    Looked n send token since s.clock (s.act x a)
  /-- Otherwise it is as far as before. -/
  rests : (a = .resume (.task n) →
      s.task? n = none ∨ ∃ send limit, s.At n (.handing send limit) ∧ s.clock < limit) →
    (∀ q, a = .answer n q → ∀ send limit, ¬ s.At n (.handing send limit)) →
    ((s.act x a).task? n).map Task.stage = (s.task? n).map Task.stage

/-! ## Histories -/

section
variable {h : History} {e : Nat × Happening} {n : Nat}

theorem acksSince_cons (id : String) (he : e.2.registers n = false) (hown : e.2.own? id = none) :
    acksSince (e :: h) n id = acksSince h n id := by
  have hsince : (since (e :: h) n).filterMap (·.2.own? id) = (since h n).filterMap (·.2.own? id) := by
    rw [since_cons h e n he]
    exact List.filterMap_cons_none hown
  unfold acksSince
  rw [hsince]

end

theorem Desk.Steps.started_le {ids : Nat → String} {direct : Prop} {d d' : Desk}
    (h : Desk.Steps ids direct d d') : d.started ≤ d'.started := by
  induction h with
  | refl => exact Nat.le_refl _
  | tail _ hstep ih =>
    refine ih.trans ?_
    cases hstep with
    | start => exact Nat.le_succ _
    | _ => exact Nat.le_refl _

theorem unreturned {ids : Nat → String} {s : Session σ} (ho : Desk.Orderly ids s.desk)
    (hf : Desk.Followed s.desk) {n : Nat} {t : Task} (ht : s.task? n = some t) (time : Nat)
    (r : Except Command.Error Message.Ack) : (time, .ended n (.sent r)) ∉ s.history := fun hmem => by
  cases (hf.shown time n r hmem).symm.trans (Desk.Followed.result?_of_send ho ht)

theorem task?_put_self {s : Session σ} {n : Nat} {t₀ : Task} (ht : s.task? n = some t₀) (t : Task) :
    (s.put n t).task? n = some t := by
  rw [Passes.task?_put, if_pos rfl, ht]
  rfl

/-! ## The states of a run -/

/-- What holds of the states of a run. -/
structure Sound (ids : Nat → String) (c : Config.Commands) (s : Session σ) : Prop where
  orderly : Desk.Orderly ids s.desk
  followed : Desk.Followed s.desk
  limit : s.hub.limit = Command.limitOfConfig c
  /-- nothing happens to tasks that were not started -/
  unheard : ∀ n, s.started < n → ∀ e ∈ s.history, e.2.owner? ≠ some n

namespace Sound

variable {ids : Nat → String} {c : Config.Commands} {s : Session σ}

theorem new {hub : Hub σ} (hp : hub.pending = {}) (hl : hub.limit = Command.limitOfConfig c) :
    Sound ids c (new hub) where
  orderly := .new hub hp
  followed := .new hub
  limit := hl
  unheard _ _ _ he := by cases he

theorem act (hinj : Function.Injective ids) (h : Sound ids c s) (x : Surroundings σ)
    (hx : x.idOf = ids) (a : Action) : Sound ids c (s.act x a) := by
  have hsteps : Desk.Steps ids True s.desk (s.act x a).desk := steps_act x hx s a fun _ _ => trivial
  exact {
    orderly := h.orderly.steps hinj hsteps
    followed := h.followed.steps hinj hsteps h.orderly
    limit := (limit_act x s a).trans h.limit
    unheard := fun n hn e he => by
      have hold : s.started < n := (show s.started ≤ _ from hsteps.started_le).trans_lt hn
      have hbeside : Beside n s (s.act x a) := by
        refine beside_act x s ?_ (Or.inr (h.orderly.numbered n hold))
        rintro job token rfl rfl
        have hstarted : (s.start job token).started = s.started + 1 :=
          congrArg Desk.started (desk_start s job token)
        exact absurd hstarted (Nat.ne_of_lt hn)
      obtain ⟨new, hnew, hothers⟩ := hbeside.history
      rw [hnew, List.mem_append] at he
      exact he.elim (hothers e) (h.unheard n hold e) }

theorem after (hinj : Function.Injective ids) (h : Sound ids c s) {ms : List (Move σ)}
    (hids : IdsFrom ids ms) : Sound ids c (s.after ms) := by
  induction ms generalizing s with
  | nil => exact h
  | cons m ms ih =>
    exact ih (h.act hinj m.1 (hids m List.mem_cons_self) m.2)
      fun m' hm => hids m' (List.mem_cons_of_mem _ hm)

end Sound

end DeviceHub.Session
