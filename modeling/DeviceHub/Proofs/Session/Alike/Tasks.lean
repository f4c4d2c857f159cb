import DeviceHub.Proofs.Session.Alike.Link

/-!
# Sessions that one send cannot tell apart: tasks

* `sameSend_handle`   what a request begins does not depend on what it can see;
* `Alike.race`, `Alike.handed`, `Alike.publish`, `Alike.send`   sends;
* `Alike.resumeTask`  a task that both sessions have goes on.
-/

namespace DeviceHub.Session

/-! ## Requests -/

/-- Two answers begin the same send, or begin none. -/
def SameSend : Option Service.Answer → Option Service.Answer → Prop
  | some (.send q), some (.send q') => q = q'
  | some (.respond _), some (.respond _) => True
  | none, none => True
  | _, _ => False

theorem sameSend_handleRoute (v v' : Service.View) (r : Service.Request) (route : Service.Route) :
    SameSend (some (Service.handleRoute v r route)) (some (Service.handleRoute v' r route)) := by
  unfold Service.handleRoute
  split
  · cases route with
    | command id =>
      cases hread : Service.readCommand r id with
      | respond a =>
        simp only [hread]
        trivial
      | send q =>
        simp only [hread]
        rfl
    | _ => trivial
  · trivial

theorem sameSend_handle (v v' : Service.View) (r : Service.Request) :
    SameSend (Service.handle v r) (Service.handle v' r) := by
  unfold Service.handle
  cases Service.pathOfTarget? r.target with
  | none => trivial
  | some path =>
    show SameSend (if _ then _ else _) (if _ then _ else _)
    split
    · trivial
    · cases hroute : Service.Route.ofPath? path with
      | none => trivial
      | some route => exact sameSend_handleRoute v v' r route

namespace Alike

variable {σ : Type} {n m : Nat} {s s' : Session σ}

/-! ## Sends -/

theorem task?_put {t₀ : Task} (ht : s.task? m = some t₀) (t : Task) :
    (s.put m t).task? m = some t :=
  (congrFun (congrArg Desk.task? (desk_put s m t)) m).trans (Desk.put_task?_self t ht)

theorem finishSend (h : Alike n s s') (ht : s'.task? m = s.task? m)
    (hclear : Desk.Clear n m s.desk) (t : Task) (r : Except Command.Error Message.Ack) :
    Alike n (s.finishSend m t r) (s'.finishSend m t r) :=
  (h.note (.resolved m r)).finish ht hclear _ _

theorem finishSend_past (s : Session σ) (hmn : m ≠ n) (hp : Task.Past (s.task? m))
    (hclear : Desk.Clear n m s.desk) (t : Task) (r : Except Command.Error Message.Ack) :
    Alike n s (s.finishSend m t r) := by
  obtain ⟨q, -, hdesk⟩ := desk_finishSend s m t r
  refine ⟨rfl, ?_⟩
  rw [hdesk]
  have hresolved : Desk.Alike n s.desk (s.desk.note s.clock (.resolved m r)) :=
    .aside _ _ (if_neg hmn)
  have hremoved : Desk.Alike n (s.desk.note s.clock (.resolved m r))
      ((s.desk.note s.clock (.resolved m r)).remove m) := .remove_past _ hmn hp hclear
  have hended (d : Desk) : Desk.Alike n d (d.note s.clock (.ended m q)) := .aside _ _ rfl
  exact (hresolved.trans hremoved).trans (hended _)

theorem race_past (x : Surroundings σ) (s : Session σ) (hmn : m ≠ n) (hp : Task.Past (s.task? m))
    (hclear : Desk.Clear n m s.desk) (t : Task) (send : Command.Send) (limit : Nat) :
    Alike n s (s.race x m t send limit) := by
  unfold Session.race
  simp only
  have hlooked (cancelled expired : Bool) :
      Alike n s (s.note (.looked m cancelled expired x.now)) := ⟨rfl, .aside _ _ rfl⟩
  split
  · exact (hlooked _ _).trans (finishSend_past (s.note _) hmn hp hclear t _)
  · exact hlooked _ _

theorem race_own (h : Alike n s s') (x : Surroundings σ) (ht : s'.task? n = s.task? n)
    {send : Command.Send} (hs : s.desk.send? n = some send) (hclear : Desk.Clear n n s.desk)
    (t : Task) (limit : Nat) : Alike n (s.race x n t send limit) (s'.race x n t send limit) := by
  have hreceived : s'.hub.pending.received? send.id = s.hub.pending.received? send.id := by
    rw [Command.Pending.received?_eq, Command.Pending.received?_eq]
    exact congrArg Option.join (h.desk.slot send hs)
  have hstands : send.race (t.cancelled = some true) (s'.hub.pending.received? send.id)
      (limit ≤ s'.clock) x.now = send.race (t.cancelled = some true)
      (s.hub.pending.received? send.id) (limit ≤ s.clock) x.now := by
    rw [hreceived, h.clock]
  have hnoted := h.note (.looked n (t.cancelled = some true) (limit ≤ s.clock) x.now)
  cases hr : send.race (t.cancelled = some true) (s.hub.pending.received? send.id)
    (limit ≤ s.clock) x.now with
  | some r =>
    rw [race_some x s n hr, race_some x s' n (hstands.trans hr), h.clock]
    exact hnoted.finishSend ht hclear t r
  | none =>
    rw [race_none x s n hr, race_none x s' n (hstands.trans hr), h.clock]
    exact hnoted

theorem race (h : Alike n s s') (x : Surroundings σ) {t₀ : Task} {send : Command.Send} {limit : Nat}
    (ht : s.task? m = some t₀) (ht' : s'.task? m = some t₀) (hs : t₀.stage = .racing send limit)
    (hapart : Desk.Apart n m s.desk send.id) (t : Task) :
    Alike n (s.race x m t send limit) (s'.race x m t send limit) := by
  have hheld : t₀.send? = some send := by rw [Task.send?, hs]
  have hclear {s : Session σ} (ht : s.task? m = some t₀) (ha : Desk.Apart n m s.desk send.id) :
      Desk.Clear n m s.desk := fun own hown =>
    Option.some.inj (((Desk.send?_of_task ht).trans hheld).symm.trans hown) ▸ ha
  by_cases hmn : m = n
  · subst hmn
    exact h.race_own x (ht'.trans ht.symm) ((Desk.send?_of_task ht).trans hheld) (hclear ht hapart) t
      limit
  · have hp {s : Session σ} (ht : s.task? m = some t₀) : Task.Past (s.task? m) := fun u hu =>
      ⟨send, limit, Option.some.inj (ht.symm.trans hu) ▸ hs⟩
    exact h.both (race_past x s hmn (hp ht) (hclear ht hapart) t send limit)
      (race_past x s' hmn (hp ht') (hclear ht' (h.desk.apart hapart)) t send limit)

section
variable (h : Alike n s s') (x : Surroundings σ) {t₀ : Task} (ht : s.task? m = some t₀)
  (ht' : s'.task? m = some t₀) {send : Option Command.Send} (hs : t₀.send? = send)
  (hapart : ∀ own, send = some own → Desk.Apart n m s.desk own.id) (t : Task)
include h ht ht' hs hapart

theorem handed (r : Except PublishError Unit) :
    Alike n (s.handed x m t send r) (s'.handed x m t send r) := by
  have hsend : s.desk.send? m = send := (Desk.send?_of_task ht).trans hs
  have hclear : Desk.Clear n m s.desk := fun own hown => hapart own (hsend.symm.trans hown)
  cases send with
  | none => exact h.finish (ht'.trans ht.symm) hclear _ _
  | some send =>
    have hnoted := h.note (.handed m r)
    cases r with
    | error e => exact hnoted.finishSend (ht'.trans ht.symm) hclear t _
    | ok u =>
      show Alike n (((((s.note _).put m _).alarm _ _).race x m t send _))
        ((((s'.note _).put m _).alarm _ _).race x m t send _)
      rw [hnoted.clock]
      let t' : Task := { t with stage := .racing send (s.clock + send.limit.ticks) }
      have hs' : t'.send? = t₀.send? := hs.symm
      have hput := hnoted.put ht ht' hs'
      have hkeep : ((s.note (.handed m (.ok u))).put m t').desk.send? n = s.desk.send? n := by
        rw [desk_put]
        exact Desk.put_send? (d := s.desk.note s.clock (.handed m (.ok u))) ht hs' n
      exact (hput.both (.alarm n _ _ _) (.alarm n _ _ _)).race x
        (task?_put (s := s.note _) ht t') (task?_put (s := s'.note _) ht' t') rfl
        (fun hmn own hown => hapart send rfl hmn own (hkeep.symm.trans hown)) t

theorem askClient :
    Alike n
      (match s.client.publish? with
      | some r => s.handed x m t send (PublishError.ofClient r)
      | none =>
        let limit := s.clock + s.hub.connection.options.publishLimit.ticks
        if limit ≤ s.clock then s.handed x m t send (.error s.hub.connection.publishExpired)
        else (s.put m { t with stage := .handing send limit }).alarm limit (.task m))
      (match s'.client.publish? with
      | some r => s'.handed x m t send (PublishError.ofClient r)
      | none =>
        let limit := s'.clock + s'.hub.connection.options.publishLimit.ticks
        if limit ≤ s'.clock then s'.handed x m t send (.error s'.hub.connection.publishExpired)
        else (s'.put m { t with stage := .handing send limit }).alarm limit (.task m)) := by
  rw [h.client]
  split
  · exact handed h x ht ht' hs hapart t _
  · simp only
    rw [h.connection, h.clock]
    split
    · exact handed h x ht ht' hs hapart t _
    · have hput (limit : Nat) : Alike n (s.put m { t with stage := .handing send limit })
          (s'.put m { t with stage := .handing send limit }) := h.put ht ht' hs.symm
      exact (hput _).both (.alarm n _ _ _) (.alarm n _ _ _)

theorem publish (p : Publication) :
    Alike n (s.publish x m t send p) (s'.publish x m t send p) := by
  unfold Session.publish
  rw [h.connection]
  split
  · exact handed h x ht ht' hs hapart t _
  · exact askClient (h.note (.published p (send.map (·.id)))) x ht ht' hs hapart t

end

theorem send (h : Alike n s s') (x : Surroundings σ) {t₀ : Task} (ht : s.task? m = some t₀)
    (ht' : s'.task? m = some t₀) (hs : t₀.send? = none)
    (hapart : Desk.Apart n m s.desk (x.idOf s.commands)) (t : Task) (r : Command.Request) :
    Alike n (s.send x m t r) (s'.send x m t r) := by
  have hlaunch : r.launch s'.hub.limit (x.idOf s'.commands) x.now =
      r.launch s.hub.limit (x.idOf s.commands) x.now := by
    rw [h.limit, show s'.commands = s.commands from h.desk.commands]
  unfold Session.send
  rw [hlaunch]
  split
  · refine h.finishSend (ht'.trans ht.symm) (fun own hown => ?_) t _
    cases hs.symm.trans ((Desk.send?_of_task ht).symm.trans hown)
  · rename_i send c hok
    have hid : send.id = x.idOf s.commands := (Command.Request.launch_ok hok).send_id
    let t' : Task := { t with stage := .handing (some send) s.clock }
    have hs' : t'.send? = some send := rfl
    have hregister : Alike n (s.register m t' send c) (s'.register m t' send c) := by
      refine ⟨h.shell, ?_⟩
      rw [desk_register, desk_register, h.clock]
      exact h.desk.register c s.clock ht ht' hs' (hid.symm ▸ hapart)
    have htask {s : Session σ} (ht : s.task? m = some t₀) :
        (s.register m t' send c).task? m = some t' :=
      (congrFun (congrArg Desk.task? (desk_register s m t' send c)) m).trans
        (Desk.register_task? ht)
    show Alike n ((s.register m t' send c).publish x m t' (some send) _) (Session.publish x
      (s'.register m { t with stage := .handing (some send) s'.clock } send c) m
      { t with stage := .handing (some send) s'.clock } (some send) _)
    rw [h.clock]
    refine hregister.publish x (htask ht) (htask ht') hs' (fun own hown hmn other hother => ?_) t' _
    cases hown
    refine hid.symm ▸ hapart hmn other ?_
    rw [desk_register] at hother
    exact Desk.register_send?_ne (Ne.symm hmn) ▸ hother

/-! ## Parties -/

section
variable (h : Alike n s s') (x : Surroundings σ) {t : Task} (ht : s.task? m = some t)
  (ht' : s'.task? m = some t)
include h ht ht'

theorem serve (hs : t.send? = none) (hapart : Desk.Apart n m s.desk (x.idOf s.commands))
    (r : Service.Request) : Alike n (s.serve x m t r) (s'.serve x m t r) := by
  have hm : s.desk.send? m = none := (Desk.send?_of_task ht).trans hs
  have hsame := sameSend_handle (x.view s.hub) (x.view s'.hub) r
  unfold Session.serve
  cases hv : Service.handle (x.view s.hub) r with
  | none =>
    cases hv' : Service.handle (x.view s'.hub) r with
    | none => exact h.close (ht'.trans ht.symm) hm _ _
    | some a' =>
      rw [hv, hv'] at hsame
      exact hsame.elim
  | some a =>
    cases hv' : Service.handle (x.view s'.hub) r with
    | none =>
      rw [hv, hv'] at hsame
      cases a <;> exact hsame.elim
    | some a' =>
      rw [hv, hv'] at hsame
      cases a with
      | respond r =>
        cases a' with
        | respond r' => exact h.close (ht'.trans ht.symm) hm _ _
        | send q' => exact hsame.elim
      | send q =>
        cases a' with
        | respond r' => exact hsame.elim
        | send q' =>
          cases hsame
          exact h.send x ht ht' hs hapart _ q

theorem connect (hs : t.send? = none) : Alike n (s.connect x m t) (s'.connect x m t) := by
  have hm : s.desk.send? m = none := (Desk.send?_of_task ht).trans hs
  unfold Session.connect
  rw [h.connection]
  split
  · exact h.close (ht'.trans ht.symm) hm _ _
  · rename_i c es _
    have hcalm : Calm tally True s (s.performAll x es c) := calm_performAll x s es c
    have hcalm' : Calm tally True s' (s'.performAll x es c) := calm_performAll x s' es c
    let t' : Task := { t with stage := .polling }
    have htask : (s.performAll x es c).task? m = some t := (congrFun hcalm.tasks m).trans ht
    have htask' : (s'.performAll x es c).task? m = some t := (congrFun hcalm'.tasks m).trans ht'
    have hput : Alike n ((s.performAll x es c).put m t') ((s'.performAll x es c).put m t') :=
      (h.performAll x es c).put htask htask' hs.symm
    have hstage : ((s.performAll x es c).put m t').task? m = some t' := task?_put htask t'
    have hnone : ((s.performAll x es c).put m t').desk.send? m = none :=
      (Desk.send?_of_task hstage).trans rfl
    simp only
    rw [hput.link]
    exact pollConnect x _ (hput.note .polled) ((task?_put htask' t').trans hstage.symm) hnone

theorem finishShutdown (hs : t.send? = none) :
    Alike n (s.finishShutdown x m) (s'.finishShutdown x m) := by
  have hm : s.desk.send? m = none := (Desk.send?_of_task ht).trans hs
  have hnoted := h.note .disconnected
  unfold Session.finishShutdown
  simp only
  rw [hnoted.connection]
  rcases (s.note .disconnected).hub.connection.finishShutdown with ⟨c, es⟩
  have hcalm : Calm tally True (s.note .disconnected) ((s.note .disconnected).performAll x es c) :=
    calm_performAll x _ es c
  have hcalm' : Calm tally True (s'.note .disconnected)
      ((s'.note .disconnected).performAll x es c) := calm_performAll x _ es c
  refine (hnoted.performAll x es c).close ?_ ((hcalm.send? m).trans hm) _ _
  exact (congrFun hcalm'.tasks m).trans ((ht'.trans ht.symm).trans (congrFun hcalm.tasks m).symm)

theorem awaitWorker (hs : t.send? = none) (waits : Bool) :
    Alike n
      (if waits && s.worker.isSome then s.put m { t with stage := .joining }
        else s.finishShutdown x m)
      (if waits && s'.worker.isSome then s'.put m { t with stage := .joining }
        else s'.finishShutdown x m) := by
  have hput : Alike n (s.put m { t with stage := .joining })
      (s'.put m { t with stage := .joining }) := h.put ht ht' hs.symm
  rw [h.worker]
  split
  · exact hput
  · exact finishShutdown h x ht ht' hs

theorem shutdown (hs : t.send? = none) : Alike n (s.shutdown x m t) (s'.shutdown x m t) := by
  unfold Session.shutdown
  rw [h.connection]
  rcases s.hub.connection.beginShutdown with ⟨c, waits⟩
  have hwake (s : Session σ) : Alike n s (if s.worker.isSome then s.wake .worker else s) := by
    split
    · exact .wake n s _
    · exact .refl n s
  have htask {s : Session σ} (ht : s.task? m = some t) :
      (if s.worker.isSome then s.wake .worker else s).task? m = some t :=
    (congrFun (congrArg Desk.task? (desk_wakeIf s _ .worker)) m).trans ht
  exact ((h.setConnection c).both (hwake _) (hwake _)).awaitWorker x
    (htask (s := { s with hub := { s.hub with connection := c } }) ht)
    (htask (s := { s' with hub := { s'.hub with connection := c } }) ht') hs waits

theorem begin (hs : t.send? = none) (hapart : Desk.Apart n m s.desk (x.idOf s.commands))
    (job : Job) : Alike n (s.begin x m t job) (s'.begin x m t job) := by
  cases job with
  | connect => exact h.connect x ht ht' hs
  | shutdown => exact h.shutdown x ht ht' hs
  | send r => exact h.send x ht ht' hs hapart t r
  | publish p => exact h.publish x ht ht' hs (fun own hown => by cases hown) t p
  | serve r => exact h.serve x ht ht' hs hapart r

theorem resumeTask (hnew : Desk.Apart n m s.desk (x.idOf s.commands))
    (hapart : ∀ own, t.send? = some own → Desk.Apart n m s.desk own.id) :
    Alike n (s.resumeTask x m t) (s'.resumeTask x m t) := by
  unfold Session.resumeTask
  cases hstage : t.stage with
  | fresh job => exact h.begin x ht ht' (by rw [Task.send?, hstage]) hnew job
  | polling =>
    simp only
    rw [h.link]
    exact pollConnect x _ h (ht'.trans ht.symm)
      ((Desk.send?_of_task ht).trans (by rw [Task.send?, hstage]))
  | joining =>
    simp only
    rw [h.worker]
    split
    · exact h.finishShutdown x ht ht' (by rw [Task.send?, hstage])
    · exact h
  | handing send limit =>
    simp only
    rw [h.connection, h.clock]
    have hsend : t.send? = send := by rw [Task.send?, hstage]
    split
    · exact h.handed x ht ht' hsend (fun own hown => hapart own (hsend.trans hown)) t _
    · exact h
  | racing send limit =>
    exact h.race x ht ht' hstage (hapart send (by rw [Task.send?, hstage])) t

end

end Alike

end DeviceHub.Session
