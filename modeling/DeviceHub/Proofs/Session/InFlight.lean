import DeviceHub.Proofs.Session.Orderly

/-!
# Pending commands are the sends in flight

* `Orderly.mem_inFlight_iff`  the sends in flight are those that tasks hold;
* `Orderly.keys_perm`         the keys of the slots are their ids, each once;
* `Orderly.stays_away`        an id without a slot gets none again;
* `trialHub`, `trial`         a hub that is connected, and surroundings, to try runs on;
* `pending_tracks_sends`      all this after every run.
-/

namespace DeviceHub.Session

namespace Desk

variable {ids : Nat → String} {d d' : Desk}

theorem Orderly.mem_inFlight_iff (h : Orderly ids d) (n : Nat) (send : Command.Send) :
    (n, send) ∈ inFlight d.history ↔ d.send? n = some send := by
  rw [mem_inFlight]
  constructor
  · rintro ⟨hreg, hopen⟩
    cases ht : d.task? n with
    | none =>
      have hended := h.ended _ hreg ht
      rw [hopen] at hended
      cases hended
    | some t => exact (send?_of_task ht).trans (h.holds _ hreg t ht)
  · intro hs
    refine ⟨h.registered n send hs, ?_⟩
    cases hended : hasEnded d.history n with
    | false => rfl
    | true =>
      have hnone : d.send? n = none := congrArg (Option.bind · Task.send?) (h.gone n hended).2
      rw [hs] at hnone
      cases hnone

theorem Orderly.contains_iff (h : Orderly ids d) (id : String) :
    d.pending.contains id = true ↔ id ∈ (inFlight d.history).map (·.2.id) := by
  rw [h.keys id, List.mem_map]
  constructor
  · rintro ⟨n, send, hs, hid⟩
    exact ⟨(n, send), (h.mem_inFlight_iff n send).mpr hs, hid⟩
  · rintro ⟨⟨n, send⟩, hmem, hid⟩
    exact ⟨n, send, (h.mem_inFlight_iff n send).mp hmem, hid⟩

theorem Orderly.inFlight_ids_nodup (h : Orderly ids d) :
    ((inFlight d.history).map (·.2.id)).Nodup :=
  h.ids_nodup.sublist (List.filter_sublist.map _)

theorem Orderly.keys_perm (h : Orderly ids d) :
    (d.pending.slots.map (·.1)).Perm ((inFlight d.history).map (·.2.id)) := by
  refine (List.perm_ext_iff_of_nodup (Sorted.nodup_keys h.tidy.sorted) h.inFlight_ids_nodup).mpr ?_
  intro id
  rw [Command.Pending.mem_keys_iff, h.contains_iff]

theorem Orderly.count_eq (h : Orderly ids d) : d.pending.count = (inFlight d.history).length := by
  have hlength := h.keys_perm.length_eq
  rw [List.length_map, List.length_map] at hlength
  exact hlength

theorem Step.history_suffix {direct : Prop} (h : Step ids direct d d') :
    d.history <:+ d'.history := by
  cases h with
  | note time e => exact List.suffix_cons _ _
  | start | put | close => exact List.suffix_rfl
  | acknowledge | hand | look | drop => exact List.suffix_cons _ _
  | refuse | register | bounce | deliver | fail | settle =>
    repeat first
      | exact List.suffix_rfl
      | refine List.IsSuffix.trans ?_ (List.suffix_cons _ _)

theorem Steps.history_suffix {direct : Prop} (h : Steps ids direct d d') :
    d.history <:+ d'.history := by
  induction h with
  | refl => exact List.suffix_rfl
  | tail _ hstep ih => exact ih.trans hstep.history_suffix

theorem Orderly.stays_away (h : Orderly ids d) (h' : Orderly ids d')
    (hs : d.history <:+ d'.history) {e : Nat × Command.Send} (he : e ∈ registrations d.history)
    (hfree : d.pending.contains e.2.id = false) : d'.pending.contains e.2.id = false := by
  rw [Bool.eq_false_iff] at hfree ⊢
  intro hback
  obtain ⟨f, hf, hid⟩ := List.mem_map.mp ((h'.contains_iff e.2.id).mp hback)
  obtain ⟨hreg, hopen⟩ := mem_inFlight.mp hf
  obtain rfl : f = e :=
    List.inj_on_of_nodup_map h'.ids_nodup hreg (registrations_of_suffix hs he) hid
  refine hfree ((h.contains_iff f.2.id).mpr (List.mem_map.mpr ⟨f, mem_inFlight.mpr ⟨he, ?_⟩, rfl⟩))
  by_contra hended
  rw [hasEnded_of_suffix hs (Bool.eq_true_of_not_eq_false hended)] at hopen
  cases hopen

end Desk

variable {σ : Type}

theorem after_append (s : Session σ) (ms ms' : List (Move σ)) :
    s.after (ms ++ ms') = (s.after ms).after ms' := List.foldl_append

/-! ## A session to try runs on -/

def tally (k : Nat) : String := String.ofList (List.replicate (k + 1) 'i')

theorem tally_injective : Function.Injective tally := by
  intro j k h
  have hlist : List.replicate (j + 1) 'i' = List.replicate (k + 1) 'i' := String.ofList_injective h
  have hlength := congrArg List.length hlist
  rw [List.length_replicate, List.length_replicate] at hlength
  exact Nat.succ_injective hlength

/-- a hub that is connected, and takes messages into nothing -/
def trialHub : Hub Unit where
  connection := { options := {}, status := .connected }
  dispatcher := { sink := (), throttle := Throttle.new 0 }
  limit := .ofMillis 10000

def trial : Surroundings Unit where
  sink := ⟨fun u _ => (u, none)⟩
  now := 1
  idOf := tally
  view h := h.view 0

/-- a command for a device is to be sent -/
def ping (device : String) : Action := .start (.send ⟨device, "ping", [], .ofMillis 50⟩) none

/-- a move for every action -/
def trialMoves (as : List Action) : List (Move Unit) := as.map fun a => (trial, a)

theorem idsFrom_trialMoves (as : List Action) : IdsFrom tally (trialMoves as) := by
  intro m hm
  obtain ⟨a, -, rfl⟩ := List.mem_map.mp hm
  rfl

/-! ## Runs -/

/-- After every run that begins without pending commands and gives no two commands the same id: the
keys of the slots are the ids of the sends that were registered and have not ended, each once; an
acknowledgement lies in the slot of its own id; there are as many slots as sends in flight; the sends
in flight are those that tasks hold; and an id that was registered and has no slot gets none again,
however the run goes on. -/
theorem pending_tracks_sends {ids : Nat → String} (hinj : Function.Injective ids) {hub : Hub σ}
    (hp : hub.pending = {}) {ms ms' : List (Move σ)} (hids : IdsFrom ids (ms ++ ms')) :
    let s := (new hub).after ms
    let s' := (new hub).after (ms ++ ms')
    (s.hub.pending.slots.map (·.1)).Perm ((inFlight s.history).map (·.2.id)) ∧
    (s.hub.pending.slots.map (·.1)).Nodup ∧
    (∀ id a, (id, some a) ∈ s.hub.pending.slots → a.id = id) ∧
    s.hub.pending.count = (inFlight s.history).length ∧
    (inFlight s.history = [] → s.hub.pending.count = 0) ∧
    (∀ n send, (n, send) ∈ inFlight s.history ↔ (s.task? n).bind Task.send? = some send) ∧
    (∀ e ∈ registrations s.history, s.hub.pending.contains e.2.id = false →
      s'.hub.pending.contains e.2.id = false) := by
  intro s s'
  have hids₁ : IdsFrom ids ms := fun m hm => hids m (List.mem_append_left _ hm)
  have hids₂ : IdsFrom ids ms' := fun m hm => hids m (List.mem_append_right _ hm)
  have h : Desk.Orderly ids s.desk := .after hinj hp hids₁
  have h' : Desk.Orderly ids s'.desk := .after hinj hp hids
  have hsuffix : s.history <:+ s'.history := by
    have hsteps : Desk.Steps ids True s.desk (s.after ms').desk :=
      steps_after s ms' hids₂ (fun _ _ _ _ => trivial)
    rw [← after_append] at hsteps
    exact hsteps.history_suffix
  refine ⟨h.keys_perm, Sorted.nodup_keys h.tidy.sorted, fun id a hmem => ?_, h.count_eq,
    fun hnone => ?_, h.mem_inFlight_iff, fun e he => h.stays_away h' hsuffix he⟩
  · exact h.tidy.held id a (h.tidy.mem_slots_iff.mp hmem)
  · rw [show s.hub.pending.count = _ from h.count_eq, show inFlight s.desk.history = [] from hnone]
    rfl

/-- Of two sends the second one has its acknowledgement and the first one is given up; then the
second one ends and a third one begins. -/
theorem pending_tracks_sends_pings :
    let ms := trialMoves [ping "a", ping "b", .resume (.task 1), .resume (.task 2),
      .acknowledge { id := tally 1, device := "b" }, .drop 1]
    let ms' := trialMoves [.resume (.task 2), ping "a", .resume (.task 3)]
    ((new trialHub).after ms).hub.pending.count = 1 ∧
    ((new trialHub).after (ms ++ ms')).hub.pending.contains (tally 0) = false := by
  intro ms ms'
  have hids : IdsFrom tally (ms ++ ms') := fun m hm =>
    (List.mem_append.mp hm).elim (idsFrom_trialMoves _ m) (idsFrom_trialMoves _ m)
  obtain ⟨-, -, -, hcount, -, -, haway⟩ := pending_tracks_sends tally_injective
    (rfl : trialHub.pending = {}) hids
  have hregs : registrations ((new trialHub).after ms).history =
      [(2, ⟨tally 1, "b", .ofMillis 50⟩), (1, ⟨tally 0, "a", .ofMillis 50⟩)] := by cbv
  refine ⟨hcount.trans (by decide +kernel), haway (1, ⟨tally 0, "a", .ofMillis 50⟩) ?_ ?_⟩
  · rw [hregs]
    exact List.mem_cons_of_mem _ List.mem_cons_self
  · decide +kernel

end DeviceHub.Session
