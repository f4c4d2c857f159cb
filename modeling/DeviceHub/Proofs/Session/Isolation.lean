import DeviceHub.Proofs.Session.Alike
import DeviceHub.Proofs.Session.Correlation

/-!
# Sends do not interfere

* `Action.ack?`       the acknowledgement that an action hands to the pending commands;
* `Idle`              an acknowledgement that is nothing to a send: without an id, for no pending
                      command, for one that has its acknowledgement, or for another send;
* `Thinned`           a run without some of the acknowledgements that are nothing to a send;
* `Thinned.alike`     the send cannot tell it from the full run;
* `sends_keep_apart`  what a send ends with, after every run.
-/

namespace DeviceHub.Session

variable {σ : Type} {n : Nat}

/-- the acknowledgement that an action hands to the pending commands -/
def Action.ack? : Action → Option Message.Ack
  | .acknowledge a => some a
  | .message topic payload => (Dispatcher.outcomeOf topic payload).ack?
  | _ => none

/-- An acknowledgement is nothing to the send of a task: it has no id, its command is not pending or
has its acknowledgement, or it is for another send. -/
def Idle (n : Nat) (s : Session σ) (a : Message.Ack) : Prop :=
  a.id = "" ∨ s.hub.pending.contains a.id = false ∨ (s.hub.pending.received? a.id).isSome = true ∨
    ∀ send, (s.task? n).bind Task.send? = some send → a.id ≠ send.id

/-- A run without some acknowledgements, each of which is nothing to the send of a task at its time. -/
inductive Thinned (n : Nat) : Session σ → List (Move σ) → List (Move σ) → Prop
  | nil (s) : Thinned n s [] []
  | keep {s x a ms ms'} (h : Thinned n (s.act x a) ms ms') :
      Thinned n s ((x, a) :: ms) ((x, a) :: ms')
  | skip {s x a ms ms'} (b) (hb : a.ack? = some b) (hi : Idle n s b)
      (h : Thinned n (s.act x a) ms ms') : Thinned n s ((x, a) :: ms) ms'

/-- An acknowledgement that is nothing to a send changes nothing that the send can see. -/
theorem Idle.alike_desk {s : Session σ} {a : Message.Ack} (hi : Idle n s a) (time : Nat) :
    Desk.Alike n s.desk (s.desk.acknowledge a time) where
  started := rfl
  commands := rfl
  tasks _ := Or.inl rfl
  slot send hs := by
    show (s.hub.pending.acknowledge a).slot? send.id = s.hub.pending.slot? send.id
    rw [Command.Pending.slot?_acknowledge]
    split
    · rename_i hown
      rcases hslot : s.hub.pending.slot? send.id with _ | _ | b
      · rfl
      · -- only an empty slot takes it, and then it is none of the four
        rcases hi with h | h | h | h
        · exact absurd h hown.2
        · rw [Command.Pending.contains_eq, hown.1, hslot] at h
          cases h
        · rw [Command.Pending.received?_eq, hown.1, hslot] at h
          cases h
        · exact absurd hown.1 (h send hs)
      · rfl
    · rfl
  result := (Desk.Alike.aside s.desk time (e := .acknowledged a) rfl).result

theorem Idle.alike {s : Session σ} (x : Surroundings σ) {a : Action} {b : Message.Ack}
    (hb : a.ack? = some b) (hi : Idle n s b) : Alike n s (s.act x a) := by
  cases a with
  | acknowledge c =>
    obtain rfl : c = b := Option.some.inj hb
    refine ⟨shell_acknowledge s c, ?_⟩
    show Desk.Alike n s.desk (s.acknowledge c).desk
    rw [desk_acknowledge]
    exact hi.alike_desk s.clock
  | message topic payload =>
    refine ⟨shell_receive x s topic payload, ?_⟩
    have ho : Dispatcher.outcomeOf topic payload = .taken (some b) :=
      Dispatcher.Outcome.ack?_eq_some hb
    show Desk.Alike n s.desk (s.receive x topic payload).desk
    rw [desk_receive_forwarded x s ho]
    let s' := s.note (.received topic payload (.taken (some b)))
    have hreceived : Desk.Alike n s.desk s'.desk := .aside _ _ rfl
    have hi' : Idle n s' b := hi
    exact hreceived.trans (hi'.alike_desk s.clock)
  | _ => cases hb

theorem Thinned.alike {ids : Nat → String} (hinj : Function.Injective ids) {s t : Session σ}
    {ms ms' : List (Move σ)} (h : Thinned n s ms ms') (hids : IdsFrom ids ms)
    (hst : Alike n s t) (hs : Desk.Orderly ids s.desk) (ht : Desk.Orderly ids t.desk) :
    Alike n (s.after ms) (t.after ms') := by
  have hact (s : Session σ) (hs : Desk.Orderly ids s.desk) (x : Surroundings σ) (hx : x.idOf = ids)
      (a : Action) : Desk.Orderly ids (s.act x a).desk := by
    have hsteps : Desk.Steps ids True s.desk (s.act x a).desk :=
      steps_act x hx s a (fun _ _ => trivial)
    exact hs.steps hinj hsteps
  induction h generalizing t with
  | nil s => exact hst
  | @keep s x a ms ms' _ ih =>
    have hx := hids (x, a) List.mem_cons_self
    exact ih (fun m hm => hids m (List.mem_cons_of_mem _ hm)) (hst.act hinj hs ht x hx a)
      (hact s hs x hx a) (hact t ht x hx a)
  | @skip s x a ms ms' b hb hi _ ih =>
    have hx := hids (x, a) List.mem_cons_self
    exact ih (fun m hm => hids m (List.mem_cons_of_mem _ hm)) ((hi.alike x hb).symm.trans hst)
      (hact s hs x hx a) ht

/-- After every run that begins without pending commands and gives no two commands the same id:

* a send that ends with an acknowledgement is answered by a call, the first one with its id since it
  was registered;
* so is one that ends because the acknowledgement is not identified;
* a call answers one send at most;
* the result of a send is that of its course, in which there are its own publish call, its own looks
  at cancellation and time limit, and the acknowledgements with its own id;
* the result that its task ends with is this one;
* without acknowledgements that are nothing to it, it ends in the same way or is as far. -/
theorem sends_keep_apart {ids : Nat → String} (hinj : Function.Injective ids) {hub : Hub σ}
    (hp : hub.pending = {}) {ms : List (Move σ)} (hids : IdsFrom ids ms) :
    let s := (new hub).after ms
    (∀ n a, result? s.history n = some (.ok a) → ∃ send older, Answered s.history n send a older) ∧
    (∀ n, result? s.history n = some (.error .invalidAck) →
      ∃ a send older, a.isIdentified = false ∧ Answered s.history n send a older) ∧
    (∀ n m send send' a b older, Answered s.history n send a older →
      Answered s.history m send' b older → n = m) ∧
    (∀ n send, (n, send) ∈ registrations s.history →
      result? s.history n = (Command.Course.of send (turns s.history n send.id)).result) ∧
    (∀ time n r, (time, .ended n (.sent r)) ∈ s.history → result? s.history n = some r) ∧
    (∀ n ms', Thinned n (new hub) ms ms' →
      let s' := (new hub).after ms'
      result? s'.history n = result? s.history n ∧ s'.task? n = s.task? n) := by
  intro s
  have ho : Desk.Orderly ids s.desk := .after hinj hp hids
  have hf : Desk.Followed s.desk := .after hinj hp hids
  refine ⟨fun n a hr => (hf.answered_ok hr).2, fun n hr => hf.answered_invalid hr,
    fun n m send send' a b older hn hm => hn.task_unique ho hm,
    fun n send hreg => (hf.results (n, send) hreg).symm, hf.shown, fun n ms' hthin => ?_⟩
  have halike := hthin.alike hinj hids (.refl n _) (.new hub hp) (.new hub hp)
  exact ⟨halike.desk.result, halike.desk.own⟩

/-- The acknowledgements of another send and of another device, and one that comes late, make no
difference to the first send. -/
theorem sends_keep_apart_pings :
    let own : Message.Ack := { id := tally 0, device := "a" }
    let other : Message.Ack := { id := tally 1, device := "b" }
    let ms := trialMoves [ping "a", ping "b", .resume (.task 1), .resume (.task 2),
      .acknowledge other, .acknowledge own, .acknowledge { own with device := "c" },
      .resume (.task 1), .acknowledge own]
    let ms' := trialMoves [ping "a", ping "b", .resume (.task 1), .resume (.task 2),
      .acknowledge own, .resume (.task 1)]
    result? ((new trialHub).after ms).history 1 = some (.ok own) ∧
    result? ((new trialHub).after ms').history 1 = some (.ok own) := by
  intro own other ms ms'
  have hresult : result? ((new trialHub).after ms).history 1 = some (.ok own) := by cbv
  obtain ⟨-, -, -, -, -, hthin⟩ := sends_keep_apart tally_injective
    (rfl : trialHub.pending = {}) (idsFrom_trialMoves [ping "a", ping "b", .resume (.task 1),
      .resume (.task 2), .acknowledge other, .acknowledge own,
      .acknowledge { own with device := "c" }, .resume (.task 1), .acknowledge own])
  have hskipped : Thinned 1 (new trialHub) ms ms' := by
    refine .keep (.keep (.keep (.keep (.skip other rfl ?_ (.keep (.skip _ rfl ?_ (.keep
      (.skip own rfl ?_ (.nil _)))))))))
    · refine Or.inr (Or.inr (Or.inr fun send hsend => ?_))
      have hheld : some send = some ⟨tally 0, "a", .ofMillis 50⟩ := hsend.symm.trans (by cbv)
      cases hheld
      exact tally_injective.ne Nat.one_ne_zero
    · exact Or.inr (Or.inr (Or.inl (by decide +kernel)))
    · exact Or.inr (Or.inl (by decide +kernel))
  exact ⟨hresult, (hthin 1 ms' hskipped).1.trans hresult⟩

end DeviceHub.Session
