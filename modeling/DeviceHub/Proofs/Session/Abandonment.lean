import DeviceHub.Proofs.Session.Ownership

/-!
# What connect calls leave behind

A connect call that fails gives the link back. One that is dropped while it waits does not.

* `lease_home`       the link stays free until a connect call runs;
* `Lease.Lost`       a link that is gone, and stays so;
* `LinkLost`         what that means for a session;
* `calls_leave_the_link_unless_dropped`  what every connect call leaves, however it ends;
* `dropped_call_loses_the_link`  a call that is dropped while it waits.
-/

namespace DeviceHub.Session

open Lease (Step Steps Reached)

variable {σ : Type} {o : Connection.Options} {exact : Prop}

/-! ## A free link -/

/-- a connect call runs for the first time -/
def ConnectRuns (s : Session σ) (a : Action) : Prop :=
  ∃ n t, a = .resume (.task n) ∧ s.task? n = some t ∧ t.stage = .fresh .connect

section
variable (x : Surroundings σ) {s : Session σ} {l : Lease}

/-- While the link is free nothing but a connect call that runs takes it. -/
theorem lease_home (h : Shows o s l) (hl : l.holder = .home) {a : Action}
    (ha : ¬ s.ConnectRuns a) : ∃ l', Shows o (s.act x a) l' ∧ l'.holder = .home := by
  have haside {s' : Session σ} (hs : Aside s s') : ∃ l', Shows o s' l' ∧ l'.holder = .home :=
    ⟨l, h.aside hs, hl⟩
  have hnobody (n : Nat) : ¬ s.Polls n := by
    rw [h.held.calls, hl]
    simp
  cases a with
  | resume p =>
    cases p with
    | worker =>
      -- there is no worker while the link is free
      have hworker : s.worker = none := h.held.worker.trans (by rw [hl]; rfl)
      have hsame : s.act x (.resume .worker) = { s with ready := s.ready.filter (· ≠ .worker) } := by
        show resumeWorker x { s with ready := s.ready.filter (· ≠ .worker) } = _
        unfold resumeWorker
        simp only [hworker]
      rw [hsame]
      exact ⟨l, ⟨⟨h.options, h.status, h.stopping, h.queue, h.clock, h.log⟩, h.held.home,
        h.held.worker, h.held.calls, fun w limit hw => by cases hl.symm.trans hw⟩, hl⟩
    | task n =>
      show ∃ l', Shows o (s.resume x (.task n)) l' ∧ _
      cases ht : s.task? n with
      | none =>
        rw [resume_task_none x s ht]
        exact ⟨l, h.unready _, hl⟩
      | some t =>
        rw [resume_task_some x s ht]
        obtain ⟨l', -, hshows, hholder⟩ := lease_resumeOther x True (h.unready n)
          (n := n) (t := t) (hnobody n) ((polls_of_task ht).not.mp (hnobody n))
          (fun hstage => ha ⟨n, t, rfl, ht, hstage⟩)
        exact ⟨l', hshows, hholder.trans hl⟩
  | start job token => exact haside (aside_start s job token)
  | cancel n => exact haside (aside_cancel s n)
  | drop n => exact haside (aside_drop (hnobody n))
  | feed events => exact ⟨_, shows_feed h events, hl⟩
  | behave c => exact haside (.of_eq rfl rfl rfl rfl rfl rfl rfl rfl)
  | answer n r => exact haside (aside_answer x s n r)
  | acknowledge a => exact haside (aside_acknowledge s a)
  | message topic payload => exact haside (Passes.receive x s topic payload)
  | reach time => exact ⟨_, shows_reach h time, hl⟩

theorem connect_begins (h : Shows o s l) (hl : l.holder = .home) {n : Nat} {t : Task}
    (ht : s.task? n = some t) (hstage : t.stage = .fresh .connect) :
    (s.clock, .polled) :: (s.clock, .became .connecting) :: entries s.history <:+
      entries (s.act x (.resume (.task n))).history := by
  obtain ⟨l', hsteps, hshows, -⟩ := lease_connect_home x (h.unready n) ht True hl
  have hact : s.act x (.resume (.task n)) =
      ({ s with ready := s.ready.filter (· ≠ .task n) } : Session σ).connect x n t := by
    show s.resume x (.task n) = _
    rw [resume_task_some x s ht]
    unfold resumeTask
    rw [hstage]
    rfl
  rw [hact, hshows.log, h.log, h.clock]
  exact Lease.Steps.suffix hsteps

end

/-! ## A link that is gone -/

namespace Lease

theorem Step.unmet {l l' : Lease} (hstep : Step o exact l l')
    (h : l.holder.isOpen = true → l.status ≠ .connected) :
    l'.holder.isOpen = true → l'.status ≠ .connected := by
  cases hstep with
  | take | fail | finish => exact fun _ => by simp [enter]
  | accept | drop | wake | lose | regain | pause | rest | stop => exact fun ho => by cases ho
  | _ => exact h

theorem Reached.unmet {fed : List Polled} {l : Lease} (h : Reached o exact fed l) :
    l.holder.isOpen = true → l.status ≠ .connected := by
  induction h with
  | start => exact fun _ => by simp
  | step _ hstep ih => exact hstep.unmet ih
  | feed _ es ih => exact ih

/-- The link is gone, and from then on nothing is taken from it and the connection does not stand. -/
structure Lost (results : List Polled) (l : Lease) : Prop where
  holder : l.holder = .gone
  taken : taken l.log = results
  status : l.status ≠ .connected

namespace Lost

variable {results : List Polled} {l l' : Lease}

theorem step (h : Lost results l) (hstep : Step o exact l l') : Lost results l' := by
  have hgone : l.holder = .gone := h.holder
  have hentered (es : List Entry) (hes : es.filterMap Entry.took? = []) :
      Session.taken (l.enter es).log = results := by
    rw [taken_enter, hes, List.append_nil, h.taken]
  cases hstep with
  | reach | halt => exact ⟨h.holder, h.taken, h.status⟩
  | refuse n hh => exact ⟨h.holder, hentered _ rfl, h.status⟩
  | finish => exact ⟨h.holder, hentered _ rfl, by simp [enter]⟩
  | take n hh | turn n p rest hh hq hp | fail n e rest hh hq | accept n rest hh hq | drop n hh
  | wake w hh hs | hear w p rest hh hs hq hp | renew w rest hh hs hw hq | lose w e rest hh hs hw hq
  | regain w rest hh hs hw hq | pause w e rest hh hs hw hq | rest w limit hh hs hl
  | stop w stage hh hs =>
    rw [hgone] at hh
    cases hh

theorem steps (h : Lost results l) (hsteps : Steps o exact l l') : Lost results l' := by
  induction hsteps with
  | refl => exact h
  | tail _ hstep ih => exact ih.step hstep

theorem feed (h : Lost results l) (es : List Polled) :
    Lost results { l with queue := l.queue ++ es } := ⟨h.holder, h.taken, h.status⟩

end Lost

end Lease

/-- Nobody has the link of a session, nor gets it, and only these results were ever taken from it. -/
structure LinkLost (results : List Polled) (s : Session σ) : Prop where
  owners : ∀ p, ¬ s.Owns p
  taken : taken (entries s.history) = results
  status : s.hub.connection.status ≠ .connected
  refused : ∀ x n t, s.task? n = some t → t.stage = .fresh .connect →
    Refused s (s.act x (.resume (.task n))) n

section
variable {s : Session σ} {l : Lease} {results : List Polled}

theorem Lease.Lost.shown (hlost : l.Lost results) (h : Shows o s l) : LinkLost results s where
  owners p hp := by
    cases p with
    | worker =>
      obtain ⟨w, stage, hl⟩ := h.owns_worker.mp hp
      cases hlost.holder.symm.trans hl
    | task n => cases hlost.holder.symm.trans ((h.held.calls n).mp hp)
  taken := by rw [h.log, hlost.taken]
  status := by rw [h.status]; exact hlost.status
  refused x n t ht hstage := refused_of_resume x h ht hstage (by
    rw [h.held.home, hlost.holder]
    rfl)

theorem Lease.Lost.after (hlost : l.Lost results) (h : Shows o s l) (ms : List (Move σ)) :
    LinkLost results (s.after ms) := by
  induction ms generalizing s l with
  | nil => exact hlost.shown h
  | cons m ms ih =>
    have hsuited : l.Suited := fun w stage hl => by cases hlost.holder.symm.trans hl
    obtain ⟨l', hsteps, hshows⟩ := lease_act m.1 h False hsuited m.2 False.elim
    exact ih ((hlost.feed _).steps hsteps) hshows

end

/-- What connect calls leave behind, in every run of a connection that was not connected yet.
One that had the link and ends without success leaves the state disconnected and the link free. A free
link stays free until a connect call runs, and that one makes an attempt of its own. To drop a call
before it has run changes nothing. But when a call is dropped while it waits, nobody ever gets the
link again. -/
theorem calls_leave_the_link_unless_dropped {hub : Hub σ} (hc : hub.connection = { options := o })
    (ms : List (Move σ)) :
    let s := (new hub).after ms
    (∀ x n t, s.task? n = some t →
      t.stage = .polling ∨ t.stage = .fresh .connect ∧ s.hub.connection.linkHome = true →
      let s' := s.act x (.resume (.task n))
      s'.task? n = none → (entries s'.history).head? ≠ some (s'.clock, .returned n (.ok ())) →
      s'.hub.connection.status = .disconnected ∧ s'.hub.connection.linkHome = true) ∧
    (∀ x a, s.hub.connection.linkHome = true → ¬ s.ConnectRuns a →
      (s.act x a).hub.connection.linkHome = true) ∧
    (∀ x n t, s.hub.connection.linkHome = true → s.task? n = some t → t.stage = .fresh .connect →
      (s.clock, .polled) :: (s.clock, .became .connecting) :: entries s.history <:+
        entries (s.act x (.resume (.task n))).history) ∧
    (∀ n t, s.task? n = some t → t.stage = .fresh .connect →
      (s.drop n).hub.connection = s.hub.connection ∧ (s.drop n).link = s.link ∧
      ∀ p, (s.drop n).Owns p ↔ s.Owns p) ∧
    ∀ n, s.Owns (.task n) → ∀ ms', LinkLost (taken (entries s.history)) ((s.drop n).after ms') := by
  intro s
  obtain ⟨l, hl, hshows⟩ : ∃ l, Reached o False (fed ms) l ∧ Shows o s l := lease_after hc ms False.elim
  refine ⟨?_, ?_, ?_, ?_, ?_⟩
  · intro x n t ht hhas s' hended hnot
    cases attempt_of_resume x hl hshows ht hhas with
    | waits hpassing hlink howns =>
      obtain ⟨u, hu, -⟩ := howns
      cases hended.symm.trans hu
    | failed passed e hpassing hlink hreturned hhome hstatus hasked => exact ⟨hstatus, hhome⟩
    | connected passed hpassing hlink hreturned howns hstatus => exact absurd hreturned hnot
  · intro x a hhome ha
    obtain ⟨l', hshows', hl'⟩ := lease_home x hshows (hshows.home_iff.mp hhome) ha
    rw [hshows'.held.home, hl']
    rfl
  · exact fun x n t hhome ht hstage =>
      connect_begins x hshows (hshows.home_iff.mp hhome) ht hstage
  · intro n t ht hstage
    have hn : ¬ s.Polls n := by
      rw [polls_of_task ht, hstage]
      simp
    have hdropped := aside_drop hn
    refine ⟨hdropped.connection, hdropped.link, fun p => ?_⟩
    cases p with
    | worker =>
      show (s.drop n).worker.isSome = true ↔ _
      rw [hdropped.worker]
      exact Iff.rfl
    | task m => exact hdropped.calls m
  · intro n hn ms'
    have hcall : l.holder = .call n := (hshows.held.calls n).mp hn
    have hlost : Lease.Lost (taken (entries s.history)) { l with holder := .gone } :=
      ⟨rfl, congrArg taken hshows.log.symm, hl.unmet (by rw [hcall]; rfl)⟩
    exact hlost.after (shows_drop hshows hn) ms'

/-- The first call fails and the second one is dropped while it waits. The broker would accept now, but
the third call does not get the link. -/
theorem calls_leave_the_link_unless_dropped_second :
    let ms := trialMoves [.start .connect none, .feed [.error (.connection "refused")],
      .resume (.task 1), .start .connect none, .resume (.task 2)]
    let ms' := trialMoves [.feed [.ok .connAck], .start .connect none]
    let s := ((new idleHub).after ms |>.drop 2).after ms'
    (∀ p, ¬ s.Owns p) ∧ taken (entries s.history) = [.error (.connection "refused")] ∧
    Refused s (s.act trial (.resume (.task 3))) 3 := by
  intro ms ms' s
  have htaken : taken (entries ((new idleHub).after ms).history) =
      [.error (.connection "refused")] := by decide +kernel
  have htask : s.task? 3 = some { stage := .fresh .connect } := by rfl
  have howns : ((new idleHub).after ms).Owns (.task 2) := ⟨{ stage := .polling }, rfl, rfl⟩
  obtain ⟨-, -, -, -, hdropped⟩ :=
    calls_leave_the_link_unless_dropped (o := idleHub.connection.options) rfl ms
  have hlost := hdropped 2 howns ms'
  exact ⟨hlost.owners, hlost.taken.trans htaken, hlost.refused trial 3 _ htask rfl⟩

/-- A connect call that is dropped while the broker keeps it waiting leaves the state connecting and
takes the link along, and the next call does not get it. -/
theorem dropped_call_loses_the_link :
    let s := (new idleHub).after (trialMoves [.start .connect none, .resume (.task 1), .drop 1])
    let s' := s.after (trialMoves [.start .connect none, .resume (.task 2)])
    s.task? 1 = none ∧ connects (entries s.history) = [] ∧
    s.hub.connection.status = .connecting ∧ s.hub.connection.linkHome = false ∧
    connects (entries s'.history) = [.error .alreadyStarted] := by
  decide +kernel

end DeviceHub.Session
