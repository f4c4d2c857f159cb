import DeviceHub.Proofs.Session.Publishing

/-!
# Whether a shutdown is final

* `Uplink.Halted`        when a shutdown call returned last, the connection does not stand;
* `Uplink.Final`         a shutdown was requested, and nobody can take the link;
* `shutdown_is_final`    then the connection never stands again;
* `shutdown_not_final`   but it may after a shutdown when somebody can take the link.
-/

namespace DeviceHub.Session

/-- whether a mark says that a shutdown call returned -/
def Mark.stopped? : Mark → Option Unit
  | .stopped => some ()
  | _ => none

/-- whether a mark may follow when nobody can take the link any more -/
def Mark.isIdle : Mark → Bool
  | .state s => s ≠ .connected
  | .returned .. | .stopped => true
  | _ => false

theorem filterMap_idle {α : Type} (f : Mark → Option α)
    (hf : ∀ m : Mark, m.isIdle = true → f m = none)
    {ms : List Mark} (hms : ∀ m ∈ ms, m.isIdle = true) (before : List Mark) :
    (before ++ ms).filterMap f = before.filterMap f := by
  rw [List.filterMap_append, List.filterMap_eq_nil_iff.mpr fun m hm => hf m (hms m hm),
    List.append_nil]

namespace Uplink

variable {direct : Prop} {u u' : Uplink}

/-! ## When a shutdown call returns -/

/-- When a shutdown call returned last, a shutdown was requested, and the connection does not
stand. -/
def Halted (u : Uplink) : Prop :=
  u.marks.getLast? = some .stopped →
    u.connection.stopping = true ∧ u.connection.status ≠ .connected

namespace Halted

theorem of_marks {ms : List Mark} (hmarks : u'.marks = u.marks ++ ms) (hne : ms ≠ [])
    (hms : ms.filterMap Mark.stopped? = []) : Halted u' := by
  intro hlast
  rw [hmarks, List.getLast?_append_of_ne_nil _ hne] at hlast
  have hnone := List.filterMap_eq_nil_iff.mp hms .stopped (List.mem_of_getLast? hlast)
  cases hnone

theorem of_same (h : Halted u) (hmarks : u'.marks = u.marks)
    (hstopping : u.connection.stopping = true → u'.connection.stopping = true)
    (hstatus : u'.connection.status = u.connection.status) : Halted u' := by
  intro hlast
  rw [hmarks] at hlast
  obtain ⟨hs, hc⟩ := h hlast
  exact ⟨hstopping hs, hstatus ▸ hc⟩

theorem of_effects {o : Connection.Options} {es : List Connection.Effect} {ms : List Mark}
    (hmarks : u'.marks = u.marks ++ (ms ++ es.flatMap (effectMarks o)))
    (hne : ms ++ es.flatMap (effectMarks o) ≠ []) (hms : ms.filterMap Mark.stopped? = []) :
    Halted u' := by
  refine of_marks hmarks hne ?_
  rw [List.filterMap_append, hms, List.nil_append]
  exact filterMap_effects _ (fun _ _ => rfl) (fun _ _ => rfl) (fun _ => rfl) o es

theorem of_take (p : Polled) (es : List Connection.Effect) (c : Connection)
    (hmarks : u'.marks = (u.take p es c).marks) : Halted u' :=
  of_effects (u := u) (hmarks.trans (List.append_assoc ..)) (List.cons_ne_nil _ _) rfl

theorem step (hwaits : Waits u) (hstep : Step direct u u') (h : Halted u) : Halted u' := by
  cases hstep with
  | start | leave => exact h.of_same rfl id rfl
  | wake | rest => exact h.of_same rfl id rfl
  | request n hn => exact h.of_same rfl (fun _ => rfl) rfl
  | message | refuse | ask | accept | reject =>
    exact of_marks (u := u) rfl (List.cons_ne_nil _ _) rfl
  | connect n c es hn hc =>
    obtain ⟨-, rfl, rfl⟩ := connect_ok hc
    exact of_marks (u := u) rfl (List.cons_ne_nil _ _) rfl
  | connectTook n p hn =>
    refine of_take (u := u) p (u.connection.connectPolled p).2.1 u.connection ?_
    unfold connectTook reach
    simp only
    split <;> rfl
  | workerTook w p limit hw hs =>
    exact of_take (u := u) p (u.connection.workerPolled w p).2.1 u.connection rfl
  | dismiss hs => exact of_marks (u := u) rfl (List.cons_ne_nil _ _) rfl
  | finish n hn => exact fun _ => ⟨hwaits n hn, Connection.Status.noConfusion⟩

theorem new {σ : Type} (hub : Hub σ) : Halted ((Session.new hub).uplink []) :=
  fun hlast => by cases hlast

theorem steps (hsteps : Steps direct u u') (hwaits : Waits u) (h : Halted u) : Halted u' := by
  suffices hboth : Waits u' ∧ Halted u' from hboth.2
  induction hsteps with
  | refl => exact ⟨hwaits, h⟩
  | tail _ hstep ih => exact ⟨ih.1.step hstep, ih.2.step ih.1 hstep⟩

end Halted

/-! ## After a shutdown -/

/-- Only idle marks follow. -/
def Idles (u u' : Uplink) : Prop :=
  ∃ later, u'.marks = u.marks ++ later ∧ ∀ m ∈ later, m.isIdle = true

theorem Idles.refl (u : Uplink) : Idles u u := ⟨[], (List.append_nil _).symm, by simp⟩

theorem Idles.trans {u'' : Uplink} (h : Idles u u') (h' : Idles u' u'') : Idles u u'' := by
  obtain ⟨later, hlater, hidle⟩ := h
  obtain ⟨later', hlater', hidle'⟩ := h'
  refine ⟨later ++ later', by rw [hlater', hlater, List.append_assoc], ?_⟩
  intro m hm
  rcases List.mem_append.mp hm with hm | hm
  · exact hidle m hm
  · exact hidle' m hm

/-- A shutdown was requested, the connection does not stand, and the link is neither free nor with a
connect call. -/
structure Final (u : Uplink) : Prop where
  stopping : u.connection.stopping = true
  status : u.connection.status ≠ .connected
  home : u.connection.linkHome = false
  calls : ∀ n, u.stand? n ≠ some .polling

namespace Final

theorem leave (h : Final u) (n : Nat) : Final (u.leave n) where
  stopping := h.stopping
  status := h.status
  home := h.home
  calls := by
    intro m hm
    obtain ⟨hm, -⟩ := stand?_of_leave hm
    exact h.calls m hm

theorem put (h : Final u) (n : Nat) {st : Stand} (hst : st ≠ .polling) : Final (u.put n st) where
  stopping := h.stopping
  status := h.status
  home := h.home
  calls := by
    intro m hm
    exact h.calls m (stand?_of_put hm hst)

theorem mark (h : Final u) (ms : List Mark) : Final (u.mark ms) :=
  ⟨h.stopping, h.status, h.home, h.calls⟩

theorem record (h : Final u) (hs : List Handover) : Final (u.record hs) :=
  ⟨h.stopping, h.status, h.home, h.calls⟩

theorem start (h : Final u) (job : Job) : Final (u.start job) where
  stopping := h.stopping
  status := h.status
  home := h.home
  calls := by
    intro m hm
    exact h.calls m (stand?_of_start hm (by simp))

/-- Whoever could take the link or poll it cannot, so the connection stays as it is. -/
theorem step (hstep : Step False u u') (h : Final u) : Final u' ∧ Idles u u' := by
  cases hstep with
  | start job => exact ⟨h.start job, .refl u⟩
  | leave n => exact ⟨h.leave n, .refl u⟩
  | message topic payload hd => exact hd.elim
  | connect n c es hn hc =>
    obtain ⟨hfree, -⟩ := connect_ok hc
    cases h.home.symm.trans hfree
  | connectTook n p hn => exact absurd hn (h.calls n)
  | wake w hw hs => cases h.stopping.symm.trans hs
  | workerTook w p limit hw hs => cases h.stopping.symm.trans hs
  | rest w limit hw hs => cases h.stopping.symm.trans hs
  | dismiss hs =>
    have hdismissed : Final u.dismiss :=
      ⟨h.stopping, Connection.Status.noConfusion, h.home, h.calls⟩
    exact ⟨hdismissed, [.state .disconnected], rfl, by simp [Mark.isIdle]⟩
  | request n hn =>
    have hrequested : Final { u with connection := u.connection.beginShutdown.1 } :=
      ⟨rfl, h.status, h.home, h.calls⟩
    exact ⟨hrequested.put n (by simp), .refl u⟩
  | finish n hn =>
    let c := u.connection.finishShutdown
    have hfinished : Final (u.perform c.2 c.1) :=
      ⟨h.stopping, Connection.Status.noConfusion, h.home, h.calls⟩
    exact ⟨(hfinished.leave n).mark [.stopped], [.state .disconnected, .stopped],
      List.append_assoc .., by simp [Mark.isIdle]⟩
  | ask n job p hn hc => exact absurd (of_decide_eq_true hc) h.status
  | refuse n job p hn hc =>
    exact ⟨((h.record _).mark _).leave n, [.returned n (.error .notConnected)], rfl,
      by simp [Mark.isIdle]⟩
  | accept n hn =>
    exact ⟨((h.record _).mark _).put n (by simp), [.returned n (.ok ())], rfl,
      by simp [Mark.isIdle]⟩
  | reject n e hn he =>
    exact ⟨(h.mark _).leave n, [.returned n (.error e)], rfl, by simp [Mark.isIdle]⟩

theorem steps (hsteps : Steps False u u') (h : Final u) : Final u' ∧ Idles u u' := by
  induction hsteps with
  | refl => exact ⟨h, .refl u⟩
  | tail _ hstep ih =>
    obtain ⟨hfinal, hidles⟩ := ih
    obtain ⟨hfinal', hidles'⟩ := hfinal.step hstep
    exact ⟨hfinal', hidles.trans hidles'⟩

end Final

end Uplink

/-! ## Runs -/

variable {σ : Type}

theorem marks_getLast? {s : Session σ} {time : Nat} {h : Happening} {m : Mark}
    (hlast : s.history.head? = some (time, h)) (hm : h.mark? = some m) :
    s.marks.getLast? = some m := by
  obtain ⟨older, holder⟩ := List.head?_eq_some_iff.mp hlast
  have hmarks : s.history.filterMap (·.2.mark?) = m :: older.filterMap (·.2.mark?) := by
    rw [holder]
    exact List.filterMap_cons_some hm
  unfold marks
  rw [hmarks, List.getLast?_reverse]
  rfl

/-- Let a shutdown call just have returned, and let the link neither be free nor with a connect call
that waits for it. Then, however the run goes on, the connection never stands again, no further
message of the link is handed to the handler, and the client is asked neither to subscribe nor to
publish. -/
theorem shutdown_is_final {hub : Hub σ} {ms ms' : List (Move σ)} (hlinked : Linked ms')
    {time n : Nat}
    (hreturned : ((new hub).after ms).history.head? = some (time, .ended n .stopped))
    (hhome : ((new hub).after ms).hub.connection.linkHome = false)
    (hcalls : ∀ m t, ((new hub).after ms).task? m = some t → t.stage.stand ≠ .polling) :
    let s := (new hub).after ms
    let s' := s.after ms'
    s'.hub.connection.status ≠ .connected ∧
    (∃ later, states s'.marks = states s.marks ++ later ∧ .connected ∉ later) ∧
    messages s'.marks = messages s.marks ∧ subscriptions s'.marks = subscriptions s.marks ∧
    sent s'.marks = sent s.marks := by
  intro s s'
  have hbefore : Uplink.Steps True ((new hub).uplink []) (s.uplink ((new hub).log ms)) :=
    uplink_after (new hub) ms [] (fun _ _ _ _ _ => trivial)
  obtain ⟨hstopping, hstatus⟩ := (Uplink.Halted.new hub).steps hbefore (.new hub)
    (marks_getLast? hreturned rfl)
  have hfinal : (s.uplink []).Final := by
    refine ⟨hstopping, hstatus, hhome, fun m hm => ?_⟩
    obtain ⟨t, ht, hstage⟩ := Option.map_eq_some_iff.mp hm
    exact hcalls m t ht hstage
  obtain ⟨hfinal', later, hlater, hidle⟩ := hfinal.steps (uplink_after s ms' [] hlinked)
  have hmarks : s'.marks = s.marks ++ later := hlater
  refine ⟨hfinal'.status, ⟨later.filterMap Mark.state?, ?_, fun hmem => ?_⟩, ?_, ?_, ?_⟩
  · rw [hmarks, states_append]
  · obtain ⟨m, hm, hstate⟩ := List.mem_filterMap.mp hmem
    have hm := hidle m hm
    cases m <;> cases hstate
    cases hm
  · rw [hmarks]
    exact filterMap_idle _ (fun m hm => by cases m <;> first | rfl | cases hm) hidle _
  · rw [hmarks]
    exact filterMap_idle _ (fun m hm => by cases m <;> first | rfl | cases hm) hidle _
  · rw [hmarks]
    exact filterMap_idle _ (fun m hm => by cases m <;> first | rfl | cases hm) hidle _

/-- The connection stood before the shutdown. Afterwards the link still has events, another connect
call comes, and a publish call. -/
theorem shutdown_is_final_established :
    let ms := trialMoves [.start .connect none, .feed [.ok .connAck], .resume (.task 1),
      .resume .worker, .start .shutdown none, .resume (.task 2), .resume .worker, .resume (.task 2)]
    let ms' := trialMoves [.feed [.ok (.publish "a" []), .ok .connAck], .start .connect none,
      .resume (.task 3), .start (.publish ⟨"t", .atLeastOnce, false, []⟩) none, .resume (.task 4)]
    let s := ((new idleHub).after ms).after ms'
    s.hub.connection.status ≠ .connected ∧ messages s.marks = [] ∧ sent s.marks = [] := by
  intro ms ms'
  dsimp only
  have hlinked : Linked ms' := by simp [Linked, trialMoves, ms']
  have htasks : ((new idleHub).after ms).tasks = [] := by cbv
  have hreturned : ((new idleHub).after ms).history.head? = some (0, .ended 2 .stopped) := by cbv
  have hmessages : messages ((new idleHub).after ms).marks = [] := by cbv
  have hsent : sent ((new idleHub).after ms).marks = [] := by cbv
  have hcalls (m : Nat) (t : Task) (ht : ((new idleHub).after ms).task? m = some t) :
      t.stage.stand ≠ .polling := by
    rw [task?, htasks] at ht
    cases ht
  obtain ⟨hstatus, -, hmessages', -, hsent'⟩ :=
    shutdown_is_final hlinked hreturned (by decide +kernel) hcalls
  exact ⟨hstatus, hmessages'.trans hmessages, hsent'.trans hsent⟩

/-- When the run goes on the connection stands again, and there are further messages, subscriptions
and publish calls. -/
structure Revives (s s' : Session σ) : Prop where
  returned : ∃ time n, s.history.head? = some (time, .ended n .stopped)
  stands : s'.hub.connection.status = .connected
  messages : (messages s.marks).length < (messages s'.marks).length
  subscriptions : (subscriptions s.marks).length < (subscriptions s'.marks).length
  sent : (sent s.marks).length < (sent s'.marks).length

/-- A connect call that waits for the link when a shutdown call returns, and one that begins
afterwards, may still get a connection. -/
theorem shutdown_not_final :
    let goesOn (n : Nat) : List (Move Unit) :=
      trialMoves [.feed [.ok (.publish "a" []), .ok .connAck], .resume (.task n),
        .start (.publish ⟨"t", .atLeastOnce, false, []⟩) none, .resume (.task 3)]
    let waiting := (new idleHub).after (trialMoves [.start .connect none, .resume (.task 1),
      .start .shutdown none, .resume (.task 2)])
    let free := (new idleHub).after (trialMoves [.start .shutdown none, .resume (.task 1)])
    Revives waiting (waiting.after (goesOn 1)) ∧
    Revives free (free.after (trialMoves [.start .connect none] ++ goesOn 2)) := by
  intro goesOn waiting free
  refine ⟨⟨⟨0, 2, rfl⟩, ?_, ?_, ?_, ?_⟩, ⟨⟨0, 1, rfl⟩, ?_, ?_, ?_, ?_⟩⟩ <;> decide +kernel

end DeviceHub.Session
