import DeviceHub.Proofs.Session.Verdict

/-!
# The steps of a send

* `ended_finishSend`, `looked_race`, `returned_handed`   a send ends, looks how its race stands, and
                      comes back from its publish call;
* `callsOf_handovers`   who makes publish calls;
* `returned_publish`, `refused_send`, `begun_send`   a send begins;
* `returned_answer`, `returned_expired`, `looked_resume`   a send goes on.
-/

namespace DeviceHub.Session

variable {σ : Type}

/-! ## The end of a send -/

section
variable {ids : Nat → String} {s : Session σ} {n : Nat} {t : Task} {send : Command.Send}
  {token : Option Bool}

theorem ended_finishSend (hserved : t.served = false)
    (hfree : ∀ time r, (time, .ended n (.sent r)) ∉ s.history)
    (r : Except Command.Error Message.Ack) : Ended (s.finishSend n t r) n r s.clock := by
  have hhistory : (s.finishSend n t r).history = ending n r (.sent r) s.clock s.history := by
    unfold finishSend
    rw [hserved]
    rfl
  refine ⟨(Passes.task?_remove (s.note (.resolved n r)) n n).trans (if_pos rfl), fun time' r' => ?_⟩
  rw [hhistory, ending]
  simp [hfree]

theorem acksSince_finishSend (id : String) (cancelled expired : Bool) (now : Int64)
    (r : Except Command.Error Message.Ack) :
    acksSince ((s.note (.looked n cancelled expired now)).finishSend n t r).history n id =
      acksSince s.history n id := by
  show acksSince ((s.clock, .ended n _) :: (s.clock, .resolved n r) ::
    (s.clock, .looked n cancelled expired now) :: s.history) n id = _
  rw [acksSince_cons _ rfl rfl, acksSince_cons _ rfl rfl, acksSince_cons _ rfl rfl]

/-- What was received for a send is the first acknowledgement for it. -/
theorem received_eq_head (hf : Desk.Followed s.desk) (hs : s.desk.send? n = some send) :
    s.hub.pending.received? send.id = (acksSince s.history n send.id).head? := by
  unfold acksSince
  rw [List.head?_reverse, ← course_slot]
  exact (hf.slots n send hs).symm

theorem acknowledged_eq {a : Message.Ack} (ha : (acksSince s.history n send.id).head? = some a) :
    Command.Send.acknowledged a = if a.device = "" then .error .invalidAck else .ok a := by
  have hmem : a ∈ acksSince s.history n send.id := List.mem_of_mem_head? ha
  unfold acksSince at hmem
  obtain ⟨e, -, he⟩ := List.mem_filterMap.mp (List.mem_reverse.mp hmem)
  obtain ⟨-, -, hid⟩ := Happening.own?_eq_some he
  unfold Command.Send.acknowledged Message.Ack.isIdentified
  by_cases hdevice : a.device = "" <;> simp [hid, hdevice]

theorem mem_handed_race (x : Surroundings σ) (limit time : Nat) (q : Except PublishError Unit) :
    (time, .handed n q) ∈ (s.race x n t send limit).history ↔ (time, .handed n q) ∈ s.history := by
  cases hr : send.race (t.cancelled = some true) (s.hub.pending.received? send.id)
    (limit ≤ s.clock) x.now with
  | some r =>
    rw [race_some x s n hr]
    show _ ∈ _ :: _ :: _ :: s.history ↔ _
    simp
  | none =>
    rw [race_none x s n hr]
    show _ ∈ _ :: s.history ↔ _
    simp

theorem looked_race (x : Surroundings σ) (ho : Desk.Orderly ids s.desk)
    (hf : Desk.Followed s.desk) {since : Nat}
    (ht : s.task? n = some ⟨.racing send (since + send.limit.ticks), token, false⟩)
    (hcancelled : t.cancelled = token) (hserved : t.served = false) :
    Looked n send token since s.clock (s.race x n t send (since + send.limit.ticks)) := by
  subst hcancelled
  have hreceived := received_eq_head hf (Desk.send?_of_task (d := s.desk) ht)
  have hended (r : Except Command.Error Message.Ack) :
      Ended ((s.note (.looked n (t.cancelled = some true)
        (since + send.limit.ticks ≤ s.clock) x.now)).finishSend n t r) n r s.clock := by
    refine ended_finishSend hserved (fun time q hmem => ?_) r
    rcases List.mem_cons.mp hmem with heq | hmem
    · cases heq
    · exact unreturned ho hf ht time q hmem
  -- the race looks at the token first, then at the slot, then at the timer
  by_cases hfired : t.cancelled = some true
  · have hr : send.race (t.cancelled = some true) (s.hub.pending.received? send.id)
        (since + send.limit.ticks ≤ s.clock) x.now = some (.error .cancelled) :=
      if_pos (decide_eq_true hfired)
    rw [race_some x s n hr]
    exact .cancelled hfired (hended _)
  · have hunfired : ¬ decide (t.cancelled = some true) = true := fun h => hfired (of_decide_eq_true h)
    cases hacks : (acksSince s.history n send.id).head? with
    | some a =>
      have hr : send.race (t.cancelled = some true) (s.hub.pending.received? send.id)
          (since + send.limit.ticks ≤ s.clock) x.now = some (Command.Send.acknowledged a) := by
        unfold Command.Send.race
        rw [if_neg hunfired, hreceived, hacks]
      rw [race_some x s n hr]
      refine .acknowledged a hfired (by rw [acksSince_finishSend, hacks]) ?_
      rw [← acknowledged_eq hacks]
      exact hended _
    | none =>
      have hnone : acksSince s.history n send.id = [] := List.head?_eq_none_iff.mp hacks
      by_cases hlate : since + send.limit.ticks ≤ s.clock
      · let ack := Message.Ack.timeout send.id send.device x.now
        have hr : send.race (t.cancelled = some true) (s.hub.pending.received? send.id)
            (since + send.limit.ticks ≤ s.clock) x.now =
              some (.error (.timeout ack send.limit)) := by
          unfold Command.Send.race
          rw [if_neg hunfired, hreceived, hacks]
          exact if_pos (decide_eq_true hlate)
        rw [race_some x s n hr]
        exact .late ack hfired (by rw [acksSince_finishSend, hnone])
          ((send.limit.add_ticks_le_iff since _).mp hlate) rfl rfl rfl rfl (hended _)
      · have hr : send.race (t.cancelled = some true) (s.hub.pending.received? send.id)
            (since + send.limit.ticks ≤ s.clock) x.now = none := by
          unfold Command.Send.race
          rw [if_neg hunfired, hreceived, hacks]
          exact if_neg fun h => hlate (of_decide_eq_true h)
        rw [race_none x s n hr]
        exact .waits hfired ((acksSince_cons _ rfl rfl).trans hnone)
          (not_le.mp ((send.limit.add_ticks_le_iff since _).not.mp hlate)) ht

theorem returned_handed (hinj : Function.Injective ids) (x : Surroundings σ)
    (ho : Desk.Orderly ids s.desk) (hf : Desk.Followed s.desk) {limit : Nat}
    (ht : s.task? n = some ⟨.handing (some send) limit, token, false⟩)
    (hunhanded : ∀ time q, (time, .handed n q) ∉ s.history) (q : Except PublishError Unit) :
    Returned n send token s.clock
      (s.handed x n ⟨.handing (some send) limit, token, false⟩ (some send) q) q := by
  have hhanded (time' : Nat) (q' : Except PublishError Unit) :
      (time', .handed n q') ∈ (s.note (.handed n q)).history ↔ time' = s.clock ∧ q' = q := by
    show _ ∈ _ :: s.history ↔ _
    simp [hunhanded]
  cases q with
  | error e =>
    refine .failed e (fun time' q' => ?_) (ended_finishSend rfl (fun time r hmem => ?_) _)
    · rw [← hhanded]
      show _ ∈ _ :: _ :: _ :: s.history ↔ _ ∈ _ :: s.history
      simp
    · rcases List.mem_cons.mp hmem with heq | hmem
      · cases heq
      · exact unreturned ho hf ht time r hmem
  | ok u =>
    let t' : Task := ⟨.racing send (s.clock + send.limit.ticks), token, false⟩
    have hdesk : ((s.note (.handed n (.ok u))).put n t').desk =
        (s.desk.note s.clock (.handed n (.ok ()))).put n t' := desk_put _ n t'
    have hstep : Desk.Step ids True s.desk ((s.note (.handed n (.ok u))).put n t').desk :=
      hdesk ▸ .hand s.desk n _ t' send s.clock ht rfl rfl
    have ht' : ((s.note (.handed n (.ok u))).put n t').task? n = some t' :=
      task?_put_self (s := s.note _) ht t'
    refine .succeeded (fun time' q' => ?_) ?_
    · rw [← hhanded]
      exact mem_handed_race x _ time' q'
    · exact looked_race x (s := ((s.note (.handed n (.ok u))).put n t').alarm _ _)
        (ho.step hinj hstep) (hf.step hinj hstep ho) ht' rfl rfl

end

/-! ## The beginning of a send -/

theorem callsOf_acceptance (n m : Nat) (q : Except TransportError Unit) :
    callsOf n (acceptance m q) = [] := by
  cases q <;> rfl

theorem callsOf_firstHandovers (s : Session σ) (n m : Nat) (p : Publication) :
    callsOf n (s.firstHandovers m p) =
      if m = n then [⟨m, p, s.hub.connection.isConnected⟩] else [] := by
  have hrest : callsOf n (if s.hub.connection.isConnected then
      s.client.publish?.elim [] (acceptance m) else []) = [] := by
    split
    · cases s.client.publish? with
      | none => rfl
      | some q => exact callsOf_acceptance n m q
    · rfl
  unfold firstHandovers
  rw [← List.singleton_append, callsOf_append, callsOf_begun, hrest, List.append_nil]

/-- Only a task that runs for the first time makes a publish call. -/
theorem callsOf_handovers (x : Surroundings σ) (s : Session σ) {n : Nat} {a : Action}
    (ha : a = .resume (.task n) → ∀ job, ¬ s.At n (.fresh job)) : callsOf n (s.handovers x a) = [] := by
  cases a with
  | resume p =>
    cases p with
    | worker => rfl
    | task m =>
      show callsOf n ((s.task? m).elim [] fun t => s.resumeHandovers x m t.stage) = []
      cases ht : s.task? m with
      | none => rfl
      | some t =>
        rw [Option.elim_some]
        unfold resumeHandovers
        split
        · rename_i job hstage
          have hmn : m ≠ n := by
            rintro rfl
            refine ha rfl job ?_
            unfold At
            rw [ht, ← hstage]
            rfl
          cases s.publication? x job with
          | none => rfl
          | some p => exact (callsOf_firstHandovers s n m p).trans (if_neg hmn)
        · rfl
  | answer m q =>
    show callsOf n ((s.task? m).elim [] fun t => answerHandovers m q t.stage) = []
    cases s.task? m with
    | none => rfl
    | some t =>
      rw [Option.elim_some]
      unfold answerHandovers
      split
      · exact callsOf_acceptance n m q
      · rfl
  | _ => rfl

section
variable {ids : Nat → String} {c : Config.Commands} {r : Command.Request} {s : Session σ} {n : Nat}
  {send : Command.Send} {token : Option Bool}

/-- the session in which the client is asked to publish for a send, if the connection stands -/
def asked (s : Session σ) (send : Command.Send) (p : Publication) : Session σ :=
  if s.hub.connection.isConnected then s.note (.published p (some send.id)) else s

theorem publish_eq (x : Surroundings σ) (s : Session σ) (n : Nat) (t : Task) (send : Command.Send)
    (p : Publication) : s.publish x n t (some send) p =
      let s₁ := s.asked send p
      let limit := s.clock + s.hub.connection.options.publishLimit.ticks
      s.prompt?.elim ((s₁.put n { t with stage := .handing (some send) limit }).alarm limit (.task n))
        fun q => s₁.handed x n t (some send) q := by
  by_cases hc : s.hub.connection.isConnected = true
  · have hgate : s.hub.connection.publishGate = .ok () := if_pos hc
    have hasked : s.asked send p = s.note (.published p (some send.id)) := if_pos hc
    have hclient : (s.note (.published p (some send.id))).client.publish? = s.client.publish? := rfl
    unfold publish prompt?
    rw [hgate, hasked, if_pos hc]
    dsimp only [Option.map_some]
    rw [hclient]
    cases s.client.publish? with
    | some q => rfl
    | none =>
      show ite (s.clock + s.hub.connection.options.publishLimit.ticks ≤ s.clock) _ _ =
        Option.elim (ite (s.hub.connection.options.publishLimit.ticks = 0) _ _) _ _
      -- a call whose deadline is now is not waited for
      by_cases hzero : s.hub.connection.options.publishLimit.ticks = 0
      · have hlate : s.clock + s.hub.connection.options.publishLimit.ticks ≤ s.clock := by omega
        rw [if_pos hzero, if_pos hlate, Option.elim_some]
        rfl
      · have hearly : ¬ s.clock + s.hub.connection.options.publishLimit.ticks ≤ s.clock := by omega
        rw [if_neg hzero, if_neg hearly, Option.elim_none]
        rfl
  · have hgate : s.hub.connection.publishGate = .error .notConnected := if_neg hc
    have hasked : s.asked send p = s := if_neg hc
    have hprompt : s.prompt? = some (.error .notConnected) := if_neg hc
    unfold publish
    rw [hgate, hasked, hprompt, Option.elim_some]

theorem returned_publish (hinj : Function.Injective ids) (x : Surroundings σ)
    (ho : Desk.Orderly ids s.desk) (hf : Desk.Followed s.desk) {limit : Nat}
    (ht : s.task? n = some ⟨.handing (some send) limit, token, false⟩)
    (hunhanded : ∀ time q, (time, .handed n q) ∉ s.history) (p : Publication) :
    let s' := s.publish x n ⟨.handing (some send) limit, token, false⟩ (some send) p
    let limit' := s.clock + s.hub.connection.options.publishLimit.ticks
    (∀ q, s.prompt? = some q → Returned n send token s.clock s' q) ∧
    (s.prompt? = none → s'.task? n = some ⟨.handing (some send) limit', token, false⟩ ∧
      ∀ time q, (time, .handed n q) ∉ s'.history) := by
  dsimp only
  rw [publish_eq]
  have hasked : Desk.Orderly ids (s.asked send p).desk ∧ Desk.Followed (s.asked send p).desk ∧
      (s.asked send p).task? n = some ⟨.handing (some send) limit, token, false⟩ ∧
      (∀ time q, (time, .handed n q) ∉ (s.asked send p).history) ∧
      (s.asked send p).clock = s.clock := by
    -- what the client is asked is noted for no task
    unfold asked
    split
    · refine ⟨ho.note s.clock rfl fun _ => rfl, hf.note s.clock (fun _ _ => ⟨rfl, rfl, rfl⟩) rfl
        (fun _ _ he => by cases he), ht, fun time q hmem => ?_, rfl⟩
      rcases List.mem_cons.mp hmem with heq | hmem
      · cases heq
      · exact hunhanded time q hmem
    · exact ⟨ho, hf, ht, hunhanded, rfl⟩
  obtain ⟨ho', hf', ht', hunhanded', hclock⟩ := hasked
  constructor
  · intro q hq
    simp only [hq, ← hclock]
    exact returned_handed hinj x ho' hf' ht' hunhanded' q
  · intro hnone
    simp only [hnone]
    exact ⟨task?_put_self ht' _, hunhanded'⟩

theorem history_publish (x : Surroundings σ) {t : Task} (ht : s.task? n = some t)
    (hs : t.send? = some send) (p : Publication) :
    s.history <:+ (s.publish x n t (some send) p).history := by
  have hasked : s.history <:+ (s.asked send p).history ∧ (s.asked send p).task? n = some t := by
    unfold asked
    split
    · exact ⟨List.suffix_cons _ _, ht⟩
    · exact ⟨List.suffix_rfl, ht⟩
  obtain ⟨hsuffix, ht'⟩ := hasked
  rw [publish_eq]
  cases s.prompt? with
  | none => exact hsuffix
  | some q =>
    have hsteps : Desk.Steps x.idOf True (s.asked send p).desk
        ((s.asked send p).handed x n t (some send) q).desk := steps_handed ht' x t _ hs
    exact hsuffix.trans hsteps.history_suffix

section
variable (x : Surroundings σ) (ht : s.task? n = some ⟨.fresh (.send r), token, false⟩)
include ht

theorem act_fresh_send : s.act x (.resume (.task n)) =
    ({ s with ready := s.ready.filter (· ≠ .task n) } : Session σ).send x n
      ⟨.fresh (.send r), token, false⟩ r :=
  resume_task_some x s ht

theorem handovers_fresh_send : s.handovers x (.resume (.task n)) =
    (s.commandPublication? x r).elim [] (s.firstHandovers n) := by
  show (s.task? n).elim [] (fun t => s.resumeHandovers x n t.stage) = _
  rw [ht]
  rfl

end

theorem refused_send (x : Surroundings σ) (h : Sound ids c s)
    (ht : s.task? n = some ⟨.fresh (.send r), token, false⟩) (hblank : r.Blank) :
    (∃ msg, Ended (s.act x (.resume (.task n))) n (.error (.invalidRequest msg)) s.clock) ∧
    registrations (s.act x (.resume (.task n))).history = registrations s.history ∧
    (s.act x (.resume (.task n))).hub.pending = s.hub.pending ∧
    s.handovers x (.resume (.task n)) = [] := by
  obtain ⟨msg, hlaunch⟩ :=
    Command.Request.launch_of_blank hblank s.hub.limit (x.idOf s.commands) x.now
  let s₀ : Session σ := { s with ready := s.ready.filter (· ≠ .task n) }
  have hact : s.act x (.resume (.task n)) =
      s₀.finishSend n ⟨.fresh (.send r), token, false⟩ (.error (.invalidRequest msg)) := by
    rw [act_fresh_send x ht]
    unfold send
    rw [show r.launch s₀.hub.limit (x.idOf s₀.commands) x.now = _ from hlaunch]
  have hpending : (s.act x (.resume (.task n))).hub.pending = s.hub.pending := by
    rw [hact]
    exact Desk.remove_pending (d := s.desk) (Desk.send?_of_task (d := s.desk) ht)
  refine ⟨⟨msg, ?_⟩, ?_, hpending, ?_⟩
  · rw [hact]
    exact ended_finishSend (s := s₀) rfl (unreturned h.orderly h.followed ht) _
  · rw [hact]
    exact (Leads.nil n).registrations_ending _ _ s.clock
  · rw [handovers_fresh_send x ht]
    unfold commandPublication?
    rw [hlaunch]
    rfl

theorem begun_send (hinj : Function.Injective ids) (x : Surroundings σ) (hx : x.idOf = ids)
    (h : Sound ids c s) {log : List Handover} (huncalled : callsOf n log = [])
    (ht : s.task? n = some ⟨.fresh (.send r), token, false⟩)
    (hunheard : ∀ e ∈ s.history, e.2.owner? ≠ some n) (hnamed : ¬ r.Blank) :
    let s' := s.act x (.resume (.task n))
    let limit := s.clock + s.hub.connection.options.publishLimit.ticks
    ∃ send, Made c r n s' (log ++ s.handovers x (.resume (.task n))) send ∧
      (∀ q, s.prompt? = some q → Returned n send token s.clock s' q) ∧
      (s.prompt? = none → s'.task? n = some ⟨.handing (some send) limit, token, false⟩ ∧
        ∀ time q, (time, .handed n q) ∉ s'.history) := by
  intro s' limit
  -- the session in which the send is registered comes before its publish call
  let s₀ : Session σ := { s with ready := s.ready.filter (· ≠ .task n) }
  let send : Command.Send := ⟨x.idOf s.commands, Text.trim r.device, r.effectiveLimit c⟩
  let command := r.command (x.idOf s.commands) x.now
  let t₁ : Task := ⟨.handing (some send) s.clock, token, false⟩
  have hlaunch : r.launch s.hub.limit (x.idOf s.commands) x.now = .ok (send, command) := by
    rw [h.limit]
    exact Command.Request.launch_of_named hnamed c _ _
  have hact : s' = (s₀.register n t₁ send command).publish x n t₁ (some send)
      (Command.publication command) := by
    refine (act_fresh_send x ht).trans ?_
    unfold Session.send
    rw [show r.launch s₀.hub.limit (x.idOf s₀.commands) x.now = _ from hlaunch]
    rfl
  have hid : send.id = ids s.desk.commands := congrFun hx _
  have hdesk : (s₀.register n t₁ send command).desk =
      s.desk.register n t₁ send command s.clock := desk_register s₀ n t₁ send command
  have ho₁ : Desk.Orderly ids (s₀.register n t₁ send command).desk := by
    rw [hdesk]
    exact h.orderly.register hinj command s.clock ht rfl rfl hid
  have hf₁ : Desk.Followed (s₀.register n t₁ send command).desk := by
    rw [hdesk]
    exact h.followed.register h.orderly command s.clock ht rfl rfl (hdesk ▸ ho₁)
  have ht₁ : (s₀.register n t₁ send command).task? n = some t₁ :=
    (congrFun (congrArg Desk.task? hdesk) n).trans (Desk.register_task? (d := s.desk) ht)
  have hunhanded (time : Nat) (q : Except PublishError Unit) :
      (time, .handed n q) ∉ (s₀.register n t₁ send command).history := fun hmem => by
    rcases List.mem_cons.mp hmem with heq | hmem
    · cases heq
    · exact hunheard _ hmem rfl
  refine ⟨send, ⟨hnamed, ?_, rfl, rfl, ?_⟩, ?_⟩
  · have hregistered : (n, send) ∈ registrations (s₀.register n t₁ send command).history :=
      mem_registrations.mpr ⟨s.clock, command, List.mem_cons_self⟩
    rw [hact]
    exact registrations_of_suffix (history_publish x ht₁ rfl _) hregistered
  · refine ⟨Command.publication command, s.hub.connection.isConnected, ?_,
      Command.Request.carries_publication r _ _⟩
    have hhandovers : s.handovers x (.resume (.task n)) =
        s.firstHandovers n (Command.publication command) := by
      rw [handovers_fresh_send x ht]
      unfold commandPublication?
      rw [hlaunch]
      rfl
    rw [hhandovers, callsOf_append, huncalled, callsOf_firstHandovers, if_pos rfl]
    rfl
  · rw [hact]
    exact returned_publish hinj x ho₁ hf₁ ht₁ hunhanded _

end

/-! ## A send goes on -/

section
variable {ids : Nat → String} {c : Config.Commands} {s : Session σ} {n : Nat} {send : Command.Send}
  {token : Option Bool} {limit : Nat}

theorem returned_answer (hinj : Function.Injective ids) (x : Surroundings σ) (h : Sound ids c s)
    (ht : s.task? n = some ⟨.handing (some send) limit, token, false⟩)
    (hunhanded : ∀ time q, (time, .handed n q) ∉ s.history) (q : Except TransportError Unit) :
    Returned n send token s.clock (s.act x (.answer n q)) (PublishError.ofClient q) := by
  have hact : s.act x (.answer n q) =
      s.handed x n ⟨.handing (some send) limit, token, false⟩ (some send)
        (PublishError.ofClient q) := by
    show s.answer x n q = _
    unfold answer
    rw [ht]
  rw [hact]
  exact returned_handed hinj x h.orderly h.followed ht hunhanded _

theorem returned_expired (hinj : Function.Injective ids) (x : Surroundings σ) (h : Sound ids c s)
    (ht : s.task? n = some ⟨.handing (some send) limit, token, false⟩)
    (hunhanded : ∀ time q, (time, .handed n q) ∉ s.history) (hlate : limit ≤ s.clock) :
    Returned n send token s.clock (s.act x (.resume (.task n)))
      (.error s.hub.connection.publishExpired) := by
  let s₀ : Session σ := { s with ready := s.ready.filter (· ≠ .task n) }
  have hact : s.act x (.resume (.task n)) =
      s₀.handed x n ⟨.handing (some send) limit, token, false⟩ (some send)
        (.error s.hub.connection.publishExpired) :=
    (resume_task_some x s ht).trans (if_pos hlate)
  rw [hact]
  exact returned_handed hinj x (s := s₀) h.orderly h.followed ht hunhanded _

theorem looked_resume (x : Surroundings σ) (h : Sound ids c s) {since : Nat}
    (ht : s.task? n = some ⟨.racing send (since + send.limit.ticks), token, false⟩) :
    Looked n send token since s.clock (s.act x (.resume (.task n))) ∧
    ∀ time q, (time, .handed n q) ∈ (s.act x (.resume (.task n))).history ↔
      (time, .handed n q) ∈ s.history := by
  let s₀ : Session σ := { s with ready := s.ready.filter (· ≠ .task n) }
  have hact : s.act x (.resume (.task n)) =
      s₀.race x n ⟨.racing send (since + send.limit.ticks), token, false⟩ send
        (since + send.limit.ticks) := resume_task_some x s ht
  rw [hact]
  exact ⟨looked_race x (s := s₀) h.orderly h.followed ht rfl rfl,
    fun time q => mem_handed_race (s := s₀) x _ time q⟩

end

end DeviceHub.Session
