import DeviceHub.Proofs.Session.Provenance

/-!
# Whom an answer names

Acknowledgements are matched by the id of the command.  Of the device they only have to name one.

* `mem_since_of_registered`   what happened after the registration of a send happened since;
* `answer_may_name_another`   an answer may name a device that the command was not sent to;
* `answer_names_its_command`  an answer names its command and a device, which is that of the command
                              when no other device acknowledges it.
-/

namespace DeviceHub.Session

theorem registrations_append (newer older : History) :
    registrations (newer ++ older) = registrations newer ++ registrations older :=
  List.filterMap_append

theorem not_registered_again {ids : Nat → String} {d : Desk} (ho : Desk.Orderly ids d)
    {newer older : History} (hsplit : d.history = newer ++ older) {n : Nat} {send : Command.Send}
    (hreg : (n, send) ∈ registrations older) : ∀ e ∈ newer, e.2.registers n = false := by
  intro e he
  have hnodup := ho.tasks_nodup
  rw [hsplit, registrations_append, List.map_append] at hnodup
  have hdisjoint := (List.nodup_append.mp hnodup).2.2
  obtain ⟨time, e⟩ := e
  cases e with
  | registered m send' c =>
    have hmem : (m, send') ∈ registrations newer := mem_registrations.mpr ⟨time, c, he⟩
    refine decide_eq_false fun hmn => ?_
    exact hdisjoint m (List.mem_map_of_mem hmem) n (List.mem_map_of_mem hreg) hmn
  | _ => rfl

theorem mem_since_of_registered {ids : Nat → String} {d : Desk} (ho : Desk.Orderly ids d)
    {newer older : History} {e : Nat × Happening} (hsplit : d.history = newer ++ e :: older)
    {n : Nat} {send : Command.Send} (hreg : (n, send) ∈ registrations older) :
    e ∈ since d.history n := by
  have hsplit' : d.history = (newer ++ [e]) ++ older := by
    rw [hsplit, List.append_assoc]
    rfl
  have hopen := not_registered_again ho hsplit' hreg
  rw [hsplit', since_append hopen]
  exact List.mem_append_left _ (List.mem_append_right _ List.mem_cons_self)

/-- An answer may name a device that the command was not sent to: a message of the device `b` answers
a command to the device `a`. -/
theorem answer_may_name_another :
    let payload := Text.Utf8.encode
      "\x7b\"v\":1,\"id\":\"i\",\"deviceId\":\"b\",\"ts\":5,\"ok\":true\x7d"
    let s := (new (Hub.assemble {} ())).after (trialMoves [.start .connect none, .resume (.task 1),
      .feed [.ok .connAck], .resume (.task 1), .resume .worker, ping "a", .resume (.task 2),
      .feed [.ok (.publish "v1/dev/b/ack" payload)], .resume .worker, .resume (.task 2)])
    ¬ ∀ n a, result? s.history n = some (.ok a) → ∀ time send c,
      (time, .registered n send c) ∈ s.history → a.device = c.device := by
  intro payload s hclaim
  have hanswer : ((result? s.history 2).any fun r => r.toOption.any (·.device = "b")) = true := by
    decide +kernel
  have hregistered :
      ((registrations s.history).any fun e => e.1 = 2 && e.2.device = "a") = true := by
    decide +kernel
  obtain ⟨_ | a, hr, ha⟩ := (Option.any_eq_true _ _).mp hanswer
  · cases ha
  · obtain ⟨⟨n, send⟩, hreg, hboth⟩ := List.any_eq_true.mp hregistered
    rw [Bool.and_eq_true] at hboth
    obtain rfl : n = 2 := of_decide_eq_true hboth.1
    obtain ⟨time, c, hc⟩ := mem_registrations.mp hreg
    have hstamped : Stamped s.history := .after (idsFrom_trialMoves _)
    have hdevice : c.device = "a" := (hstamped _ _ _ _ hc).device.trans (of_decide_eq_true hboth.2)
    have hsame := hclaim 2 a hr time send c hc
    rw [hdevice, of_decide_eq_true ha] at hsame
    exact absurd hsame (by decide)

/-- After every run that begins without pending commands and gives no two commands the same id, a
send that ends with an acknowledgement ends with the first one that has the id of its command since it
was registered.  The command was published, and the acknowledgement names it and a device.  When every
acknowledgement of the command since then names the device of the command, so does this one. -/
theorem answer_names_its_command {σ : Type} {ids : Nat → String} (hinj : Function.Injective ids)
    {hub : Hub σ} (hp : hub.pending = {}) {ms : List (Move σ)} (hids : IdsFrom ids ms) :
    let s := (new hub).after ms
    ∀ n a, result? s.history n = some (.ok a) → ∃ send c older,
      Answered s.history n send a older ∧ (∃ time, (time, .registered n send c) ∈ older) ∧
      (∃ time, (time, .published (Command.publication c) (some c.id)) ∈ s.history) ∧
      a.id = c.id ∧ a.device ≠ "" ∧
      ((∀ e ∈ since s.history n, ∀ b, e.2 = .acknowledged b → b.id = c.id → b.device = c.device) →
        a.device = c.device) := by
  intro s n a hr
  have ho : Desk.Orderly ids s.desk := .after hinj hp hids
  have hf : Desk.Followed s.desk := .after hinj hp hids
  have hstamped : Stamped s.desk.history := .after hids
  obtain ⟨hidentified, send, older, hanswered⟩ := hf.answered_ok hr
  obtain ⟨newer, time, hcall, -⟩ := hanswered.call
  obtain ⟨time', c, hc⟩ := mem_registrations.mp hanswered.registered
  have hc' : (time', .registered n send c) ∈ s.desk.history := by
    rw [hcall]
    exact List.mem_append_right _ (List.mem_cons_of_mem _ hc)
  have hid : a.id = c.id := hanswered.own.trans (hstamped _ _ _ _ hc').id.symm
  unfold Message.Ack.isIdentified at hidentified
  rw [Bool.and_eq_true] at hidentified
  refine ⟨send, c, older, hanswered, ⟨time', hc⟩, published_of_answer hstamped hf hr trivial hc',
    hid, of_decide_eq_true hidentified.2, fun hothers => ?_⟩
  exact hothers _ (mem_since_of_registered ho hcall hanswered.registered) a rfl hid

/-- A device acknowledges a command to it. -/
theorem answer_names_its_command_ping :
    let s := (new trialHub).after (trialMoves [ping "a", .resume (.task 1),
      .acknowledge { id := tally 0, device := "a" }, .resume (.task 1)])
    ∃ a c time, (time, .published (Command.publication c) (some c.id)) ∈ s.history ∧ a.id = c.id ∧
      result? s.history 1 = some (.ok a) := by
  intro s
  have hanswer : ((result? s.history 1).any Except.isOk) = true := by decide +kernel
  obtain ⟨_ | a, hr, ha⟩ := (Option.any_eq_true _ _).mp hanswer
  · cases ha
  · obtain ⟨send, c, older, -, -, ⟨time, hpublished⟩, hid, -⟩ := answer_names_its_command
      tally_injective (rfl : trialHub.pending = {}) (idsFrom_trialMoves [ping "a", .resume (.task 1),
        .acknowledge { id := tally 0, device := "a" }, .resume (.task 1)]) 1 a hr
    exact ⟨a, c, time, hpublished, hid, hr⟩

end DeviceHub.Session
