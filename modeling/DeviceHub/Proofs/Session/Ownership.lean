import DeviceHub.Proofs.Session.Lease.Steps

/-!
# The link has one owner at a time

* `taken`, `connects`   the results that were taken from the link, and what connect calls returned;
* `Lease.Single`        connect calls succeed once at most, and what follows from it;
* `Owns`                who has the link, and polls it;
* `Attempt`, `Refused`  how a connect call that runs ends or waits, when it has the link and when not;
* `link_has_one_owner`  all of it, for every run.
-/

namespace DeviceHub.Session

open Lease (Step Reached isPassing passEntries passThen)

variable {σ : Type} {o : Connection.Options} {exact : Prop}

/-! ## Logs -/

namespace Entry

def took? : Entry → Option Polled
  | .took p => some p
  | _ => none

def returned? : Entry → Option (Except TransportError Unit)
  | .returned _ r => some r
  | _ => none

end Entry

/-- the results that were taken from the link, in their order -/
def taken (log : Log) : List Polled := (log.filterMap (·.2.took?)).reverse

/-- what connect calls returned, in their order -/
def connects (log : Log) : List (Except TransportError Unit) :=
  (log.filterMap (·.2.returned?)).reverse

theorem filterMap_enter {α : Type} (f : Entry → Option α) (l : Lease) (es : List Entry) :
    ((l.enter es).log.filterMap (f ·.2)).reverse =
      (l.log.filterMap (f ·.2)).reverse ++ es.filterMap f := by
  unfold Lease.enter
  rw [List.filterMap_append, List.filterMap_reverse, List.filterMap_map, List.reverse_append,
    List.reverse_reverse]
  rfl

theorem taken_enter (l : Lease) (es : List Entry) :
    taken (l.enter es).log = taken l.log ++ es.filterMap Entry.took? := filterMap_enter _ l es

theorem connects_enter (l : Lease) (es : List Entry) :
    connects (l.enter es).log = connects l.log ++ es.filterMap Entry.returned? :=
  filterMap_enter _ l es

theorem mem_enter {l : Lease} {es : List Entry} {e : Nat × Entry} :
    e ∈ (l.enter es).log ↔ (e.1 = l.clock ∧ e.2 ∈ es) ∨ e ∈ l.log := by
  unfold Lease.enter
  rw [List.mem_append, List.mem_reverse, List.mem_map]
  refine or_congr_left ⟨?_, fun ⟨htime, he⟩ => ⟨e.2, he, by rw [← htime]⟩⟩
  rintro ⟨entry, he, rfl⟩
  exact ⟨rfl, he⟩

theorem filterMap_passThen {α : Type} (f : Entry → Option α) (hf : f .asked = none) (e : Entry) :
    (passThen o e).filterMap f = [e].filterMap f := by
  have hpass : (passEntries o).filterMap f = [] := by
    refine List.filterMap_eq_nil_iff.mpr fun e he => ?_
    obtain ⟨_, -, rfl⟩ := List.mem_map.mp he
    exact hf
  unfold passThen
  rw [List.filterMap_append, hpass, List.nil_append]

namespace Lease

/-! ## Nothing of the link is lost -/

theorem Step.taken {l l' : Lease} (h : Step o exact l l') :
    taken l'.log ++ l'.queue = taken l.log ++ l.queue := by
  have hnone (entry : Entry) (he : entry.took? = none) :
      (passThen o entry).filterMap Entry.took? = [] := by
    rw [filterMap_passThen Entry.took? rfl, List.filterMap_cons_none he, List.filterMap_nil]
  have hone {p : Polled} {rest : List Polled} {es : List Entry} (hq : l.queue = p :: rest)
      (hes : es.filterMap Entry.took? = []) :
      Session.taken l.log ++ (Entry.took p :: es).filterMap Entry.took? ++ rest =
        Session.taken l.log ++ l.queue := by
    have htook : (Entry.took p :: es).filterMap Entry.took? = p :: es.filterMap Entry.took? := rfl
    rw [htook, hes, hq, List.append_assoc]
    rfl
  cases h with
  | turn n p rest hh hq hp | hear w p rest hh hs hq hp =>
    exact (congrArg (· ++ rest) (taken_enter _ _)).trans (hone hq rfl)
  | fail n e rest hh hq => exact (congrArg (· ++ rest) (taken_enter _ _)).trans (hone hq rfl)
  | lose w e rest hh hs hw hq => exact (congrArg (· ++ rest) (taken_enter _ _)).trans (hone hq rfl)
  | pause w e rest hh hs hw hq => exact (congrArg (· ++ rest) (taken_enter _ _)).trans (hone hq rfl)
  | accept n rest hh hq =>
    exact (congrArg (· ++ rest) (taken_enter _ _)).trans (hone hq (hnone _ rfl))
  | renew w rest hh hs hw hq =>
    exact (congrArg (· ++ rest) (taken_enter _ _)).trans (hone hq (hnone _ rfl))
  | regain w rest hh hs hw hq =>
    exact (congrArg (· ++ rest) (taken_enter _ _)).trans (hone hq (hnone _ rfl))
  | refuse | take | wake | rest | stop | finish =>
    exact congrArg (· ++ l.queue) ((taken_enter _ _).trans (List.append_nil _))
  | reach | drop | halt => rfl

theorem Reached.taken {fed : List Polled} {l : Lease} (h : Reached o exact fed l) :
    taken l.log ++ l.queue = fed := by
  induction h with
  | start => rfl
  | step _ hstep ih => exact hstep.taken.trans ih
  | feed _ es ih => rw [← ih, List.append_assoc]

end Lease

/-! ## Connect calls succeed once at most -/

namespace Lease

/-- After a connect call that succeeded all others find the link taken. Until one does nothing is
subscribed, and there is a worker afterwards only. -/
structure Single (l : Lease) : Prop where
  once : (connects l.log).Pairwise fun r r' => r = .ok () → r' = .error .alreadyStarted
  fresh : l.holder.isOpen = true → .ok () ∉ connects l.log ∧ ∀ e ∈ l.log, e.2 ≠ .asked
  manned : ∀ w stage, l.holder = .worker w stage → .ok () ∈ connects l.log

namespace Single

variable {l l' : Lease}

theorem keep (h : Single l) (es : List Entry) (hlog : l'.log = (l.enter es).log)
    (hes : es.filterMap Entry.returned? = [])
    (hopen : l'.holder.isOpen = true → l.holder.isOpen = true ∧ .asked ∉ es)
    (hworker : ∀ w stage, l'.holder = .worker w stage → ∃ w stage, l.holder = .worker w stage) :
    Single l' := by
  have hconnects : connects l'.log = connects l.log := by
    rw [hlog, connects_enter, hes, List.append_nil]
  refine ⟨hconnects ▸ h.once, fun ho => ?_, fun w stage hw => ?_⟩
  · obtain ⟨ho, hasked⟩ := hopen ho
    obtain ⟨hok, hlogged⟩ := h.fresh ho
    refine ⟨hconnects ▸ hok, fun e he heq => ?_⟩
    rw [hlog] at he
    rcases mem_enter.mp he with ⟨-, he⟩ | he
    · exact hasked (heq ▸ he)
    · exact hlogged e he heq
  · obtain ⟨w, stage, hw⟩ := hworker w stage hw
    exact hconnects ▸ h.manned w stage hw

theorem keep_manned (h : Single l) (es : List Entry) (hlog : l'.log = (l.enter es).log)
    (hes : es.filterMap Entry.returned? = []) {w : Connection.Worker} {stage : WorkerStage}
    (hl : l.holder = .worker w stage) (hl' : l'.holder.isOpen = false) : Single l' :=
  h.keep es hlog hes (fun ho => by rw [hl'] at ho; cases ho) (fun _ _ _ => ⟨w, stage, hl⟩)

theorem answer (h : Single l) (ho : l.holder.isOpen = true) (es : List Entry)
    {r : Except TransportError Unit} (hlog : l'.log = (l.enter es).log)
    (hes : es.filterMap Entry.returned? = [r])
    (hopen : l'.holder.isOpen = true → .ok () ≠ r ∧ .asked ∉ es)
    (hworker : ∀ w stage, l'.holder = .worker w stage → r = .ok ()) : Single l' := by
  have hconnects : connects l'.log = connects l.log ++ [r] := by
    rw [hlog, connects_enter, hes]
  obtain ⟨hok, hlogged⟩ := h.fresh ho
  refine ⟨?_, fun ho' => ⟨?_, fun e he heq => ?_⟩, fun w stage hw => ?_⟩
  · rw [hconnects]
    refine List.pairwise_append.mpr ⟨h.once, List.pairwise_singleton .., fun q hq _ _ heq => ?_⟩
    exact absurd (heq ▸ hq) hok
  · rw [hconnects, List.mem_append, List.mem_singleton, not_or]
    exact ⟨hok, (hopen ho').1⟩
  · rw [hlog] at he
    rcases mem_enter.mp he with ⟨-, he⟩ | he
    · exact (hopen ho').2 (heq ▸ he)
    · exact hlogged e he heq
  · rw [hconnects, hworker w stage hw]
    exact List.mem_append_right _ List.mem_cons_self

theorem step (hstep : Step o exact l l') (h : Single l) : Single l' := by
  have hpass (es : List Entry) (hes : es.filterMap Entry.returned? = []) :
      (es ++ passThen o .polled).filterMap Entry.returned? = [] := by
    rw [List.filterMap_append, hes, filterMap_passThen Entry.returned? rfl]
    rfl
  cases hstep with
  | reach | halt => exact ⟨h.once, h.fresh, h.manned⟩
  | refuse n hh =>
    have hconnects := connects_enter l [.returned n (.error .alreadyStarted)]
    refine ⟨?_, fun ho => ⟨?_, fun e he => ?_⟩, fun w stage hw => ?_⟩
    · rw [hconnects]
      refine List.pairwise_append.mpr ⟨h.once, List.pairwise_singleton .., fun r _ r' hr' _ => ?_⟩
      exact List.mem_singleton.mp hr'
    · rw [hconnects]
      simpa [Entry.returned?] using (h.fresh ho).1
    · rcases mem_enter.mp he with ⟨-, he⟩ | he
      · rw [List.mem_singleton.mp he]
        simp
      · exact (h.fresh ho).2 e he
    · rw [hconnects]
      exact List.mem_append_left _ (h.manned w stage hw)
  | take n hh =>
    exact h.keep _ rfl rfl (fun _ => ⟨by rw [hh]; rfl, by simp⟩) (fun w stage hw => by cases hw)
  | turn n p rest hh hq hp =>
    exact h.keep _ rfl rfl (fun ho => ⟨ho, by simp⟩) (fun w stage hw => ⟨w, stage, hw⟩)
  | fail n e rest hh hq =>
    exact h.answer (by rw [hh]; rfl) [.took (.error e), .became .disconnected,
      .returned n (.error e)] rfl rfl (fun _ => by simp) (fun w stage hw => by cases hw)
  | accept n rest hh hq =>
    refine h.answer (by rw [hh]; rfl) _ (r := .ok ()) rfl ?_ (fun ho => by cases ho) (fun _ _ _ => rfl)
    rw [List.filterMap_cons_none rfl, List.filterMap_cons_none rfl,
      filterMap_passThen Entry.returned? rfl]
    rfl
  | drop n hh =>
    exact h.keep [] rfl rfl (fun ho => by cases ho) (fun w stage hw => by cases hw)
  | wake w hh hs | rest w limit hh hs hl => exact h.keep_manned _ rfl rfl hh rfl
  | hear w p rest hh hs hq hp => exact h.keep_manned _ rfl rfl hh (by rw [hh]; rfl)
  | renew w rest hh hs hw hq =>
    exact h.keep_manned _ rfl (hpass [.took (.ok .connAck)] rfl) hh (by rw [hh]; rfl)
  | lose w e rest hh hs hw hq => exact h.keep_manned _ rfl rfl hh rfl
  | regain w rest hh hs hw hq =>
    exact h.keep_manned _ rfl (hpass [.took (.ok .connAck), .became .connected] rfl) hh rfl
  | pause w e rest hh hs hw hq => exact h.keep_manned _ rfl rfl hh rfl
  | stop w stage hh hs => exact h.keep_manned _ rfl rfl hh rfl
  | finish => exact h.keep _ rfl rfl (fun ho => ⟨ho, by simp⟩) (fun w stage hw => ⟨w, stage, hw⟩)

end Single

theorem Reached.single {fed : List Polled} {l : Lease} (h : Reached o exact fed l) : Single l := by
  induction h with
  | start => exact ⟨.nil, fun _ => ⟨List.not_mem_nil, fun e he => by cases he⟩, fun w stage hw => by cases hw⟩
  | step _ hstep ih => exact ih.step hstep
  | feed _ es ih => exact ⟨ih.once, ih.fresh, ih.manned⟩

end Lease

/-! ## Sessions -/

/-- a party has the link: it polls it, or will -/
def Owns (s : Session σ) : Party → Prop
  | .worker => s.worker.isSome = true
  | .task n => s.Polls n

section
variable {s s' : Session σ} {l l' : Lease}

theorem Shows.owns_worker (h : Shows o s l) :
    s.Owns .worker ↔ ∃ w stage, l.holder = .worker w stage := by
  show s.worker.isSome = true ↔ _
  rw [h.held.worker]
  constructor
  · intro hw
    obtain ⟨⟨w, stage⟩, hw⟩ := Option.isSome_iff_exists.mp hw
    exact ⟨w, stage, Holder.eq_worker hw⟩
  · rintro ⟨w, stage, hw⟩
    rw [hw]
    rfl

theorem Shows.one_owner (h : Shows o s l) {p q : Party} (hp : s.Owns p) (hq : s.Owns q) : p = q := by
  have hboth {n : Nat} (hn : s.Owns (.task n)) (hw : s.Owns .worker) : False := by
    obtain ⟨w, stage, hl⟩ := h.owns_worker.mp hw
    have hcall := (h.held.calls n).mp hn
    rw [hl] at hcall
    cases hcall
  cases p with
  | worker =>
    cases q with
    | worker => rfl
    | task m => exact (hboth hq hp).elim
  | task n =>
    cases q with
    | worker => exact (hboth hp hq).elim
    | task m =>
      have hcall := ((h.held.calls n).mp hp).symm.trans ((h.held.calls m).mp hq)
      exact congrArg Party.task (Holder.call.inj hcall)

theorem Shows.home_iff (h : Shows o s l) :
    s.hub.connection.linkHome = true ↔ l.holder = .home := by
  rw [h.held.home]
  cases l.holder <;> simp [Holder.isHome]

theorem Shows.home_of_owns (h : Shows o s l) {p : Party} (hp : s.Owns p) :
    s.hub.connection.linkHome = false := by
  rw [h.held.home]
  cases p with
  | worker =>
    obtain ⟨w, stage, hl⟩ := h.owns_worker.mp hp
    rw [hl]
    rfl
  | task n =>
    rw [(h.held.calls n).mp hp]
    rfl

end

/-- How a connect call stands that had the link when it ran: it took the results that were there up to
the first that decides, and waits, has failed with the link free again, or has succeeded. -/
inductive Attempt (s s' : Session σ) (n : Nat) : Prop
  | waits (hpassing : ∀ p ∈ s.link, isPassing p = true) (hlink : s'.link = [])
      (howns : s'.Owns (.task n))
  | failed (passed : List Polled) (e : TransportError) (hpassing : ∀ p ∈ passed, isPassing p = true)
      (hlink : s.link = passed ++ .error e :: s'.link)
      (hreturned : (entries s'.history).head? = some (s'.clock, .returned n (.error e)))
      (hhome : s'.hub.connection.linkHome = true)
      (hstatus : s'.hub.connection.status = .disconnected)
      (hasked : ∀ entry ∈ entries s'.history, entry.2 ≠ .asked)
  | connected (passed : List Polled) (hpassing : ∀ p ∈ passed, isPassing p = true)
      (hlink : s.link = passed ++ .ok .connAck :: s'.link)
      (hreturned : (entries s'.history).head? = some (s'.clock, .returned n (.ok ())))
      (howns : s'.Owns .worker) (hstatus : s'.hub.connection.status = .connected)

/-- A connect call that finds the link taken fails at once. Nothing else happens or changes. -/
structure Refused (s s' : Session σ) (n : Nat) : Prop where
  history : s'.history = (s.clock, .ended n (.connected (.error .alreadyStarted))) :: s.history
  connection : s'.hub.connection = s.hub.connection
  link : s'.link = s.link
  owners : ∀ p, s'.Owns p ↔ s.Owns p

section
variable {s s' : Session σ} {l l' : Lease} {n : Nat}

theorem Attempt.of_outcome (hshows : Shows o s' l') (hsingle : l'.Single)
    (h : l'.Outcome n s.link) : Attempt s s' n := by
  cases h with
  | waits hp hh hq => exact .waits hp (hshows.queue.trans hq) ((hshows.held.calls n).mpr hh)
  | failed passed e hp hq hh hs hl =>
    refine .failed passed e hp (hshows.queue ▸ hq) ?_ ?_ (hshows.status.trans hs) ?_
    · rw [hshows.log, hl, hshows.clock]
    · rw [hshows.held.home, hh]
      rfl
    · rw [hshows.log]
      exact (hsingle.fresh (by rw [hh]; rfl)).2
  | connected passed w hp hq hh hs hl =>
    refine .connected passed hp (hshows.queue ▸ hq) ?_ (hshows.owns_worker.mpr ⟨w, .fresh, hh⟩)
      (hshows.status.trans hs)
    rw [hshows.log, hl, hshows.clock]

variable (x : Surroundings σ) {t : Task}

theorem attempt_of_resume {events : List Polled} (hreached : Reached o exact events l)
    (h : Shows o s l) (ht : s.task? n = some t)
    (hhas : t.stage = .polling ∨ t.stage = .fresh .connect ∧ s.hub.connection.linkHome = true) :
    Attempt s (s.act x (.resume (.task n))) n := by
  have hunready := h.unready n
  show Attempt s (s.resume x (.task n)) n
  rw [resume_task_some x s ht]
  unfold resumeTask
  rcases hhas with hstage | ⟨hstage, hhome⟩
  · have hl : l.holder = .call n := (h.held.calls n).mp ((polls_of_task ht).mpr hstage)
    obtain ⟨l', hsteps, hshows, houtcome⟩ :=
      lease_pollConnect x exact s.link hunready hl rfl
    rw [hstage]
    exact .of_outcome hshows (hreached.steps hsteps).single houtcome
  · have hl : l.holder = .home := h.home_iff.mp hhome
    obtain ⟨l', hsteps, hshows, houtcome⟩ := lease_connect_home x hunready ht exact hl
    rw [hstage]
    exact .of_outcome hshows ((hreached.step (.take l n hl)).steps hsteps).single houtcome

theorem refused_of_resume (h : Shows o s l) (ht : s.task? n = some t)
    (hstage : t.stage = .fresh .connect) (hhome : s.hub.connection.linkHome = false) :
    Refused s (s.act x (.resume (.task n))) n := by
  have hn : ¬ s.Polls n := by
    rw [polls_of_task ht, hstage]
    simp
  have hl : l.holder ≠ .home := h.home_iff.not.mp (ne_true_of_eq_false hhome)
  let s₀ : Session σ := { s with ready := s.ready.filter (· ≠ .task n) }
  have hrefused : s.act x (.resume (.task n)) =
      s₀.finish n (.connected (.error .alreadyStarted)) := by
    show s.resume x (.task n) = _
    rw [resume_task_some x s ht]
    unfold resumeTask
    rw [hstage]
    exact (lease_connect_taken x (h.unready n) ht hstage hl).1
  rw [hrefused]
  have hpasses : Passes s.hub.connection _ s₀
      (s₀.finish n (.connected (.error .alreadyStarted))) := .finish s₀ hn rfl
  exact ⟨rfl, rfl, rfl, fun p => by
    cases p with
    | worker => exact Iff.rfl
    | task m => exact hpasses.calls m⟩

end

/-- In every run of a connection that was not connected yet: at most one party has the link, and none
while it is free; what was taken from the link and what is left is what the link was fed, so that
whoever polls next goes on with the next result; at most one connect call succeeds, which is what
starts the worker, and all that return later are told so; a connect call that has the link or gets it
makes an attempt; and one that finds the link taken fails and changes nothing. -/
theorem link_has_one_owner {hub : Hub σ} (hc : hub.connection = { options := o })
    (ms : List (Move σ)) :
    let s := (new hub).after ms
    (∀ p q, s.Owns p → s.Owns q → p = q) ∧
    (∀ p, s.Owns p → s.hub.connection.linkHome = false) ∧
    taken (entries s.history) ++ s.link = fed ms ∧
    (∀ before later, connects (entries s.history) = before ++ .ok () :: later →
      .ok () ∉ before ∧ (∀ r ∈ later, r = .error .alreadyStarted) ∧
      s.hub.connection.linkHome = false) ∧
    (s.Owns .worker → .ok () ∈ connects (entries s.history)) ∧
    ∀ x n t, s.task? n = some t →
      (t.stage = .polling ∨ t.stage = .fresh .connect ∧ s.hub.connection.linkHome = true →
        Attempt s (s.act x (.resume (.task n))) n) ∧
      (t.stage = .fresh .connect → s.hub.connection.linkHome = false →
        Refused s (s.act x (.resume (.task n))) n) := by
  intro s
  obtain ⟨l, hl, hshows⟩ : ∃ l, Reached o False (fed ms) l ∧ Shows o s l := lease_after hc ms False.elim
  have hsingle := hl.single
  refine ⟨fun p q => hshows.one_owner, fun p => hshows.home_of_owns, ?_, ?_, ?_,
    fun x n t ht => ⟨attempt_of_resume x hl hshows ht, refused_of_resume x hshows ht⟩⟩
  · rw [hshows.log, hshows.queue]
    exact hl.taken
  · rw [hshows.log]
    intro before later hreturns
    have honce := hsingle.once
    rw [hreturns, List.pairwise_append, List.pairwise_cons] at honce
    obtain ⟨-, ⟨hlater, -⟩, hbefore⟩ := honce
    refine ⟨fun hmem => ?_, fun r hr => hlater r hr rfl, ?_⟩
    · cases hbefore _ hmem _ List.mem_cons_self rfl
    · rw [hshows.held.home]
      cases hh : l.holder with
      | home =>
        refine absurd ?_ (hsingle.fresh (by rw [hh]; rfl)).1
        rw [hreturns]
        exact List.mem_append_right _ List.mem_cons_self
      | call | worker | gone => rfl
  · rw [hshows.log, hshows.owns_worker]
    rintro ⟨w, stage, hw⟩
    exact hsingle.manned w stage hw

/-- The first call fails, the second one begins while the first waits, the third one gets the result
after the error and succeeds, and the fourth one finds the link with the worker. -/
theorem link_has_one_owner_calls :
    let ms := trialMoves [.start .connect none, .start .connect none, .resume (.task 1),
      .resume (.task 2), .feed [.error (.connection "refused"), .ok .connAck], .resume (.task 1),
      .start .connect none, .resume (.task 3), .start .connect none]
    let s := (new idleHub).after ms
    connects (entries s.history) = [.error .alreadyStarted, .error (.connection "refused"), .ok ()] ∧
    s.hub.connection.linkHome = false ∧ (∀ p, s.Owns p → p = .worker) ∧
    Refused s (s.act trial (.resume (.task 4))) 4 := by
  intro ms s
  have hconnects : connects (entries s.history) =
      [.error .alreadyStarted, .error (.connection "refused")] ++ .ok () :: [] := by decide +kernel
  have htask : s.task? 4 = some { stage := .fresh .connect } := by rfl
  have hworker : s.worker.isSome = true := by decide +kernel
  obtain ⟨hone, -, -, honce, -, hcalls⟩ := link_has_one_owner (o := idleHub.connection.options) rfl ms
  have hhome := (honce _ _ hconnects).2.2
  exact ⟨hconnects, hhome, fun p hp => hone p .worker hp hworker,
    (hcalls trial 4 _ htask).2 rfl hhome⟩

end DeviceHub.Session
