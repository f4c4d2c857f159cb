import DeviceHub.Proofs.Session.Verdict.Steps

/-!
# The outcome of a send

* `Made.mono`, `Ended.beside`, `Stands.beside`   what is not touched stays;
* `Looked.stands`, `Returned.stands`   where a send stands after a step;
* `beside_rests`      an action in which a task does not go on leaves it alone;
* `Stands.follows`, `Stands.act`   every action does to a send what it should, and where the send stands
                      then;
* `Stands.after`      runs;
* `sends_have_one_outcome`   every send of every run.
-/

namespace DeviceHub.Session

variable {σ : Type}

/-! ## Where a send stands -/

section
variable {c : Config.Commands} {r : Command.Request} {n : Nat} {token : Option Bool}
  {s s' : Session σ} {log new : List Handover} {send : Command.Send}

theorem at_iff {t : Task} (ht : s.task? n = some t) (stage : Stage) :
    s.At n stage ↔ t.stage = stage := by
  unfold At
  rw [ht, Option.map_some, Option.some_inj]

theorem not_at_of_gone (h : s.task? n = none) (stage : Stage) : ¬ s.At n stage := by
  unfold At
  rw [h]
  simp

theorem Made.mono (h : Made c r n s log send) (hs : s.history <:+ s'.history)
    (hcalls : callsOf n new = []) : Made c r n s' (log ++ new) send where
  named := h.named
  registered := registrations_of_suffix hs h.registered
  device := h.device
  limit := h.limit
  call := by
    rw [callsOf_append, hcalls, List.append_nil]
    exact h.call

theorem Ended.beside {q : Except Command.Error Message.Ack} {time : Nat} (h : Ended s n q time)
    (hb : Beside n s s') : Ended s' n q time :=
  ⟨hb.task.trans h.gone, fun time' q' => (hb.mem_iff rfl).trans (h.returned time' q')⟩

theorem Looked.stands {since time : Nat} (h : Looked n send token since time s)
    (hmade : Made c r n s log send)
    (hhanded : ∀ time q, (time, .handed n q) ∈ s.history ↔ time = since ∧ q = .ok ()) :
    Stands c r n token s log := by
  cases h with
  | cancelled _ ended => exact .ends send _ time hmade ended
  | acknowledged a _ _ ended => exact .ends send _ time hmade ended
  | late a _ _ _ _ _ _ _ ended => exact .ends send _ time hmade ended
  | waits _ _ _ task => exact .races send since hmade task hhanded

theorem Returned.stands {time : Nat} {q : Except PublishError Unit}
    (h : Returned n send token time s q) (hmade : Made c r n s log send) :
    Stands c r n token s log := by
  cases h with
  | failed e _ ended => exact .ends send _ time hmade ended
  | succeeded hhanded looked => exact looked.stands hmade hhanded

namespace Stands

section
variable (h : Stands c r n token s log)
include h

theorem of_fresh {job : Job} (hat : s.At n (.fresh job)) :
    s.task? n = some ⟨.fresh (.send r), token, false⟩ ∧ (∀ e ∈ s.history, e.2.owner? ≠ some n) ∧
      callsOf n log = [] := by
  cases h with
  | fresh task unheard uncalled => exact ⟨task, unheard, uncalled⟩
  | refused _ _ _ ended | ends _ _ _ _ ended => exact absurd hat (not_at_of_gone ended.gone _)
  | publishes _ _ _ task | races _ _ _ task => cases (at_iff task _).mp hat

theorem of_handing {limit : Nat} (hat : s.At n (.handing (some send) limit)) :
    s.task? n = some ⟨.handing (some send) limit, token, false⟩ ∧ Made c r n s log send ∧
      ∀ time q, (time, .handed n q) ∉ s.history := by
  cases h with
  | publishes send limit made task unhanded =>
    cases (at_iff task _).mp hat
    exact ⟨task, made, unhanded⟩
  | refused _ _ _ ended | ends _ _ _ _ ended => exact absurd hat (not_at_of_gone ended.gone _)
  | fresh task | races _ _ _ task => cases (at_iff task _).mp hat

theorem of_racing {limit : Nat} (hat : s.At n (.racing send limit)) :
    ∃ since, limit = since + send.limit.ticks ∧
      s.task? n = some ⟨.racing send (since + send.limit.ticks), token, false⟩ ∧
      Made c r n s log send ∧
      ∀ time q, (time, .handed n q) ∈ s.history ↔ time = since ∧ q = .ok () := by
  cases h with
  | races send since made task handed =>
    cases (at_iff task _).mp hat
    exact ⟨since, rfl, task, made, handed⟩
  | refused _ _ _ ended | ends _ _ _ _ ended => exact absurd hat (not_at_of_gone ended.gone _)
  | fresh task | publishes _ _ _ task => cases (at_iff task _).mp hat

theorem beside (hb : Beside n s s') (hcalls : callsOf n new = []) :
    Stands c r n token s' (log ++ new) := by
  obtain ⟨newer, hnewer, hothers⟩ := hb.history
  have hsuffix : s.history <:+ s'.history := ⟨newer, hnewer.symm⟩
  have huncalled (hnone : callsOf n log = []) : callsOf n (log ++ new) = [] := by
    rw [callsOf_append, hnone, hcalls]
    rfl
  cases h with
  | fresh task unheard uncalled =>
    refine .fresh (hb.task.trans task) (fun e he => ?_) (huncalled uncalled)
    rw [hnewer, List.mem_append] at he
    exact he.elim (hothers e) (unheard e)
  | refused msg time blank ended unregistered uncalled =>
    exact .refused msg time blank (ended.beside hb)
      (fun send => (hb.registered_iff send).not.mpr (unregistered send)) (huncalled uncalled)
  | publishes send limit made task unhanded =>
    exact .publishes send limit (made.mono hsuffix hcalls) (hb.task.trans task)
      fun time q => (hb.mem_iff rfl).not.mpr (unhanded time q)
  | races send since made task handed =>
    exact .races send since (made.mono hsuffix hcalls) (hb.task.trans task)
      fun time q => (hb.mem_iff rfl).trans (handed time q)
  | ends send result time made ended =>
    exact .ends send result time (made.mono hsuffix hcalls) (ended.beside hb)

end

theorem task?_cancel {t : Task} (ht : s.task? n = some t) :
    (s.cancel n).task? n = some { t with cancelled := t.cancelled.map fun _ => true } ∧
      (s.cancel n).history = s.history := by
  have hput := task?_put_self ht { t with cancelled := t.cancelled.map fun _ => true }
  have hwake (s : Session σ) (p : Party) : (s.wake p).task? n = s.task? n ∧
      (s.wake p).history = s.history := by
    unfold wake
    split <;> exact ⟨rfl, rfl⟩
  unfold cancel
  rw [ht]
  simp only
  split
  · split
    · exact ⟨(hwake _ _).1.trans hput, (hwake _ _).2⟩
    · exact ⟨hput, rfl⟩
  · exact ⟨hput, rfl⟩

theorem cancel (h : Stands c r n token s log) :
    Stands c r n (token.map fun _ => true) (s.cancel n) log := by
  have hgone (hnone : s.task? n = none) : s.cancel n = s := by
    unfold Session.cancel
    rw [hnone]
  have hmade {send : Command.Send} (hmade : Made c r n s log send)
      (hhistory : (s.cancel n).history = s.history) : Made c r n (s.cancel n) log send :=
    { hmade with registered := by rw [hhistory]; exact hmade.registered }
  cases h with
  | fresh task unheard uncalled =>
    obtain ⟨htask, hhistory⟩ := task?_cancel task
    exact .fresh htask (hhistory ▸ unheard) uncalled
  | publishes send limit made task unhanded =>
    obtain ⟨htask, hhistory⟩ := task?_cancel task
    exact .publishes send limit (hmade made hhistory) htask (hhistory ▸ unhanded)
  | races send since made task handed =>
    obtain ⟨htask, hhistory⟩ := task?_cancel task
    exact .races send since (hmade made hhistory) htask (hhistory ▸ handed)
  | refused msg time blank ended unregistered uncalled =>
    rw [hgone ended.gone]
    exact .refused msg time blank ended unregistered uncalled
  | ends send result time made ended =>
    rw [hgone ended.gone]
    exact .ends send result time made ended

end Stands

end

/-! ## Actions -/

def Action.cancels (n : Nat) : Action → Bool
  | .cancel m => m = n
  | _ => false

section
variable {ids : Nat → String} {c : Config.Commands} {r : Command.Request} {n : Nat}
  {token : Option Bool} {x : Surroundings σ} {s : Session σ} {log : List Handover} {a : Action}
  {send : Command.Send} {limit : Nat}

theorem beside_rests (x : Surroundings σ) (hn : n ≤ s.started) (hdrop : a ≠ .drop n)
    (hcancel : a ≠ .cancel n)
    (hresume : a = .resume (.task n) →
      s.task? n = none ∨ ∃ send limit, s.At n (.handing send limit) ∧ s.clock < limit)
    (hanswer : ∀ q, a = .answer n q → ∀ send limit, ¬ s.At n (.handing send limit)) :
    Beside n s (s.act x a) := by
  cases a with
  | resume p =>
    by_cases hp : p = .task n
    · subst hp
      rcases hresume rfl with hnone | ⟨send, limit, hat, hearly⟩
      · exact beside_resume x s (p := .task n) (Or.inr hnone)
      · -- the client has not answered, and its time is not over
        obtain ⟨t, ht, hstage⟩ := Option.map_eq_some_iff.mp hat
        have hact : s.act x (.resume (.task n)) =
            { s with ready := s.ready.filter (· ≠ .task n) } := by
          refine (resume_task_some x s ht).trans ?_
          unfold resumeTask
          rw [hstage]
          exact if_neg (not_le.mpr hearly)
        rw [hact]
        exact .of_eq rfl rfl rfl
    · exact beside_resume x s (Or.inl hp)
  | start job token => exact beside_start s (by omega) job token
  | cancel m => exact beside_cancel s (Or.inl fun hm => hcancel (by rw [hm]))
  | drop m => exact beside_drop s (Or.inl fun hm => hdrop (by rw [hm]))
  | answer m q =>
    by_cases hm : m = n
    · subst hm
      show Beside m s (s.answer x m q)
      unfold answer
      split
      · exact .refl m s
      · rename_i t ht
        split
        · rename_i send limit hstage
          exact absurd ((at_iff ht _).mpr hstage) (hanswer q rfl send limit)
        · exact .refl m s
    · exact beside_answer x s (Or.inl hm) q
  | feed | behave | acknowledge | message | reach =>
    exact beside_act x s (fun _ _ h => by cases h) (Or.inl rfl)

namespace Stands

/-- Every action does to a send what it should. -/
theorem follows (hinj : Function.Injective ids) (hx : x.idOf = ids) (h : Sound ids c s)
    (hstands : Stands c r n token s log) (hn : n ≤ s.started) (hdrop : a ≠ .drop n) :
    Follows c r n token x s log a where
  refuses := by
    rintro rfl hat hblank
    exact refused_send x h (hstands.of_fresh hat).1 hblank
  begins := by
    rintro rfl hat hnamed
    obtain ⟨ht, hunheard, huncalled⟩ := hstands.of_fresh hat
    obtain ⟨send, hmade, hreturns, hwaits⟩ := begun_send hinj x hx h huncalled ht hunheard hnamed
    exact ⟨send, hmade, hreturns, fun hnone => (at_iff (hwaits hnone).1 _).mpr rfl⟩
  answered := by
    rintro q send limit rfl hat
    obtain ⟨ht, -, hunhanded⟩ := hstands.of_handing hat
    exact returned_answer hinj x h ht hunhanded q
  expires := by
    rintro send limit rfl hat hlate
    obtain ⟨ht, -, hunhanded⟩ := hstands.of_handing hat
    exact returned_expired hinj x h ht hunhanded hlate
  looks := by
    rintro send since rfl hat
    obtain ⟨since', hlimit, ht, -⟩ := hstands.of_racing hat
    obtain rfl : since = since' := Nat.add_right_cancel hlimit
    exact (looked_resume x h ht).1
  rests hresume hanswer := by
    by_cases hcancel : a = .cancel n
    · subst hcancel
      show ((s.cancel n).task? n).map Task.stage = _
      cases ht : s.task? n with
      | none =>
        unfold Session.cancel
        simp [ht]
      | some t =>
        rw [(task?_cancel ht).1]
        rfl
    · exact congrArg (Option.map Task.stage) (beside_rests x hn hdrop hcancel hresume hanswer).task

theorem begun (hinj : Function.Injective ids) (hx : x.idOf = ids) (h : Sound ids c s)
    (task : s.task? n = some ⟨.fresh (.send r), token, false⟩)
    (unheard : ∀ e ∈ s.history, e.2.owner? ≠ some n) (uncalled : callsOf n log = []) :
    Stands c r n token (s.act x (.resume (.task n))) (log ++ s.handovers x (.resume (.task n))) := by
  by_cases hblank : r.Blank
  · obtain ⟨⟨msg, hended⟩, hregistrations, -, hnone⟩ := refused_send x h task hblank
    refine .refused msg _ hblank hended (fun send hmem => ?_) ?_
    · rw [hregistrations] at hmem
      obtain ⟨time, command, hmem⟩ := mem_registrations.mp hmem
      exact unheard _ hmem rfl
    · rw [hnone, List.append_nil]
      exact uncalled
  · obtain ⟨send, hmade, hreturns, hwaits⟩ := begun_send hinj x hx h uncalled task unheard hblank
    cases hprompt : s.prompt? with
    | some q => exact (hreturns q hprompt).stands hmade
    | none =>
      obtain ⟨htask, hunhanded⟩ := hwaits hprompt
      exact .publishes send _ hmade htask hunhanded

theorem act (hinj : Function.Injective ids) (hx : x.idOf = ids) (h : Sound ids c s)
    (hstands : Stands c r n token s log) (hn : n ≤ s.started) (hdrop : a ≠ .drop n) :
    Stands c r n (token.map (· || a.cancels n)) (s.act x a) (log ++ s.handovers x a) := by
  have hsteps : Desk.Steps ids True s.desk (s.act x a).desk := steps_act x hx s a fun _ _ => trivial
  have hsuffix : s.history <:+ (s.act x a).history := hsteps.history_suffix
  have hmono {send : Command.Send} (hmade : Made c r n s log send)
      (hran : ∀ job, ¬ s.At n (.fresh job)) : Made c r n (s.act x a) (log ++ s.handovers x a) send :=
    hmade.mono hsuffix (callsOf_handovers x s fun _ => hran)
  -- a cancel changes the token and nothing else, and nothing else changes the token
  by_cases hcancel : a = .cancel n
  · subst hcancel
    have htoken : token.map (· || (Action.cancel n).cancels n) = token.map fun _ => true := by
      simp [Action.cancels]
    rw [htoken, show s.handovers x (.cancel n) = [] from rfl, List.append_nil]
    exact hstands.cancel
  have htoken : token.map (· || a.cancels n) = token := by
    have hnone : a.cancels n = false := by
      cases a with
      | cancel m => exact decide_eq_false fun hm => hcancel (by rw [hm])
      | _ => rfl
    simp [hnone]
  rw [htoken]
  have hbeside (hresume : a = .resume (.task n) →
        s.task? n = none ∨ ∃ send limit, s.At n (.handing send limit) ∧ s.clock < limit)
      (hanswer : ∀ q, a = .answer n q → ∀ send limit, ¬ s.At n (.handing send limit)) :
      Stands c r n token (s.act x a) (log ++ s.handovers x a) := by
    refine hstands.beside (beside_rests x hn hdrop hcancel hresume hanswer) ?_
    refine callsOf_handovers x s fun ha job hat => ?_
    rcases hresume ha with hnone | ⟨send, limit, hat', -⟩
    · exact not_at_of_gone hnone _ hat
    · cases hat.symm.trans hat'
  cases hstands with
  | fresh task unheard uncalled =>
    by_cases ha : a = .resume (.task n)
    · subst ha
      exact begun hinj hx h task unheard uncalled
    · exact hbeside (fun h => absurd h ha) fun q _ send limit hat => by
        cases (at_iff task _).mp hat
  | publishes send limit made task unhanded =>
    have hran (job : Job) : ¬ s.At n (.fresh job) := fun hat => by cases (at_iff task _).mp hat
    by_cases hanswer : ∃ q, a = .answer n q
    · obtain ⟨q, rfl⟩ := hanswer
      exact (returned_answer hinj x h task unhanded q).stands (hmono made hran)
    by_cases hlate : a = .resume (.task n) ∧ limit ≤ s.clock
    · obtain ⟨rfl, hlate⟩ := hlate
      exact (returned_expired hinj x h task unhanded hlate).stands (hmono made hran)
    · refine hbeside (fun ha => Or.inr ⟨send, limit, (at_iff task _).mpr rfl, ?_⟩)
        fun q ha => absurd ⟨q, ha⟩ hanswer
      exact not_le.mp fun hle => hlate ⟨ha, hle⟩
  | races send since made task handed =>
    have hran (job : Job) : ¬ s.At n (.fresh job) := fun hat => by cases (at_iff task _).mp hat
    by_cases ha : a = .resume (.task n)
    · subst ha
      obtain ⟨hlooked, hhanded⟩ := looked_resume x h task
      exact hlooked.stands (hmono made hran) fun time q => (hhanded time q).trans (handed time q)
    · exact hbeside (fun h => absurd h ha) fun q _ send limit hat => by
        cases (at_iff task _).mp hat
  | refused _ _ _ ended | ends _ _ _ _ ended =>
    exact hbeside (fun _ => Or.inl ended.gone) fun _ _ _ _ => not_at_of_gone ended.gone _

end Stands

end

/-! ## Runs -/

/-- what the token of a task says after a run -/
def tokenAfter (token : Option Bool) (n : Nat) (ms : List (Move σ)) : Option Bool :=
  token.map (· || ms.any fun m => m.2.cancels n)

theorem log_append (s : Session σ) (ms ms' : List (Move σ)) :
    s.log (ms ++ ms') = s.log ms ++ (s.after ms).log ms' := by
  induction ms generalizing s with
  | nil => rfl
  | cons m ms ih =>
    show s.handovers m.1 m.2 ++ (s.act m.1 m.2).log (ms ++ ms') = _
    rw [ih, ← List.append_assoc]
    rfl

section
variable {ids : Nat → String} {c : Config.Commands} {r : Command.Request} {token : Option Bool}

theorem Stands.start {s : Session σ} (h : Sound ids c s) {log : List Handover}
    (hledger : (s.uplink log).Ledger) (token : Option Bool) :
    Stands c r (s.started + 1) token (s.start (.send r) token) log := by
  have hdesk := desk_start s (.send r) token
  refine .fresh ?_ (fun e he => h.unheard _ (Nat.lt_succ_self _) e ?_)
    (hledger.numbered _ (Nat.lt_succ_self _)).2
  · refine (congrFun (congrArg Desk.task? hdesk) _).trans ?_
    have hfree : s.desk.task? (s.started + 1) = none := h.orderly.numbered _ (Nat.lt_succ_self _)
    rw [Desk.start_task?, hfree]
    exact if_pos rfl
  · rw [show (s.start (.send r) token).history = s.history from congrArg Desk.history hdesk] at he
    exact he

/-- After every run a send stands somewhere, unless it was given up. -/
theorem Stands.after (hinj : Function.Injective ids) {s : Session σ} {n : Nat}
    {log : List Handover} (h : Sound ids c s) (hstands : Stands c r n token s log)
    (hn : n ≤ s.started) {later : List (Move σ)} (hids : IdsFrom ids later)
    (hkept : ∀ m ∈ later, m.2 ≠ .drop n) :
    Stands c r n (tokenAfter token n later) (s.after later) (log ++ s.log later) ∧
      n ≤ (s.after later).started := by
  -- the token is what the moves so far have made of it, so it is generalised too
  induction later generalizing s log token with
  | nil =>
    have htoken : tokenAfter token n ([] : List (Move σ)) = token := by
      unfold tokenAfter
      simp
    rw [htoken, show s.log [] = [] from rfl, List.append_nil]
    exact ⟨hstands, hn⟩
  | cons m later ih =>
    have hx := hids m List.mem_cons_self
    have hsteps : Desk.Steps ids True s.desk (s.act m.1 m.2).desk :=
      steps_act m.1 hx s m.2 fun _ _ => trivial
    have hnext := ih (h.act hinj m.1 hx m.2)
      (hstands.act hinj hx h hn (hkept m List.mem_cons_self)) (hn.trans hsteps.started_le)
      (fun m' hm => hids m' (List.mem_cons_of_mem _ hm))
      fun m' hm => hkept m' (List.mem_cons_of_mem _ hm)
    have htoken : tokenAfter (token.map (· || m.2.cancels n)) n later =
        tokenAfter token n (m :: later) := by
      unfold tokenAfter
      rw [Option.map_map]
      exact congrArg (Option.map · token) (funext fun b => Bool.or_assoc ..)
    rw [htoken, List.append_assoc] at hnext
    exact hnext

end

/-- Of every send of every run that begins without pending commands and gives no two commands the same
id, as long as its caller does not give it up:

* the send stands somewhere: it has not run, it was refused, or it was registered and published once,
  to its device, at least once and not retained, and then its publish call waits, it waits for its
  acknowledgement, or it has returned one result;
* every next action does to it what it should: a blank request is refused without being registered or
  published; when its publish call returns an error it ends with that at once; when its publish call
  succeeds, and whenever it is resumed after that, it ends if its token has fired, if it has an
  acknowledgement, or if its time is over, in this order of priority; nothing else ends it. -/
theorem sends_have_one_outcome {ids : Nat → String} (hinj : Function.Injective ids)
    {c : Config.Commands} {hub : Hub σ} (hp : hub.pending = {})
    (hl : hub.limit = Command.limitOfConfig c) {before later : List (Move σ)}
    {x₀ : Surroundings σ} {r : Command.Request} {token : Option Bool}
    (hids : IdsFrom ids (before ++ (x₀, .start (.send r) token) :: later)) {n : Nat}
    (hn : n = ((new hub).after before).started + 1) (hkept : ∀ m ∈ later, m.2 ≠ .drop n) :
    let ms := before ++ (x₀, .start (.send r) token) :: later
    let s := (new hub).after ms
    let log := (new hub).log ms
    Stands c r n (tokenAfter token n later) s log ∧
    ∀ x a, x.idOf = ids → a ≠ .drop n → Follows c r n (tokenAfter token n later) x s log a := by
  intro ms s log
  subst hn
  have hbefore : IdsFrom ids before := fun m hm => hids m (List.mem_append_left _ hm)
  have hlater : IdsFrom ids later := fun m hm =>
    hids m (List.mem_append_right _ (List.mem_cons_of_mem _ hm))
  let s₀ := (new hub).after before
  have hledger : (s₀.uplink ((new hub).log before)).Ledger := by
    have hsteps : Uplink.Steps True ((new hub).uplink []) (s₀.uplink ([] ++ (new hub).log before)) :=
      uplink_after (new hub) before [] fun _ _ _ _ _ => trivial
    exact (Uplink.Ledger.new hub).steps hsteps
  have hsound : Sound ids c s₀ := (Sound.new hp hl).after hinj hbefore
  have hstart : Sound ids c (s₀.start (.send r) token) :=
    hsound.act hinj x₀ (hids _ (List.mem_append_right _ List.mem_cons_self)) (.start (.send r) token)
  have hstarted : (s₀.start (.send r) token).started = s₀.started + 1 :=
    congrArg Desk.started (desk_start s₀ (.send r) token)
  obtain ⟨hstands, hle⟩ := (Stands.start hsound hledger token).after hinj hstart hstarted.ge hlater
    hkept
  have hs : s = (s₀.start (.send r) token).after later := after_append ..
  have hlog : log = (new hub).log before ++ (s₀.start (.send r) token).log later := log_append ..
  rw [← hs, ← hlog] at hstands
  rw [← hs] at hle
  have hfinal : Sound ids c s := hs ▸ hstart.after hinj hlater
  exact ⟨hstands, fun x a hx hdrop => hstands.follows hinj hx hfinal hle hdrop⟩

/-- the publish call of a send waits, and meanwhile the acknowledgement comes -/
def overtaking : List (Move Unit) :=
  trialMoves [.behave { stall := true }, .resume (.task 1),
    .acknowledge { id := tally 0, device := "a", ok := true }]

/-- An acknowledgement that comes while the publish call still waits is the result as soon as the call
returns. -/
theorem sends_have_one_outcome_early :
    Ended (((new trialHub).after
      ([] ++ (trial, .start (.send ⟨" a ", "ping", [], .ofMillis 0⟩) (some false)) ::
        overtaking)).act trial (.answer 1 (.ok ()))) 1
      (.ok { id := tally 0, device := "a", ok := true }) 0 := by
  have hids : IdsFrom tally ([] ++
      (trial, .start (.send ⟨" a ", "ping", [], .ofMillis 0⟩) (some false)) :: overtaking) :=
    idsFrom_trialMoves (.start (.send ⟨" a ", "ping", [], .ofMillis 0⟩) (some false) ::
      [.behave { stall := true }, .resume (.task 1),
        .acknowledge { id := tally 0, device := "a", ok := true }])
  have hkept : ∀ m ∈ overtaking, m.2 ≠ .drop 1 := by simp [overtaking, trialMoves]
  obtain ⟨-, hfollows⟩ := sends_have_one_outcome tally_injective (c := {})
    (rfl : trialHub.pending = {}) rfl hids rfl hkept
  have hanswered := (hfollows trial (.answer 1 (.ok ())) rfl (by simp)).answered (.ok ())
    ⟨tally 0, "a", .ofMillis 10000⟩ 5000 rfl rfl
  have hunfired : tokenAfter (some false) 1 overtaking = some false := rfl
  cases hanswered with
  | succeeded _ looked =>
    cases looked with
    | cancelled fired => cases hunfired.symm.trans fired
    | acknowledged a _ first ended =>
      have hfirst : some a = some { id := tally 0, device := "a", ok := true } :=
        first.symm.trans (by cbv)
      cases hfirst
      exact ended
    | late _ _ unanswered | waits _ unanswered =>
      exact absurd (congrArg List.length unanswered) (by decide +kernel)

end DeviceHub.Session
