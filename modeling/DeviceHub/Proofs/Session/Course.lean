import DeviceHub.Proofs.Session.History

/-!
# The courses of the sends of a history

* `course`            the course of a send by the turns that a history lists for it;
* `Happening.Spares`, `Happening.Turns`   what leaves a send alone, and what is a turn of it;
* `course_slot`, `call_of_slot`   the slot of a course holds the first acknowledgement with the id of
                      the send that was handed over since the send was registered;
* `Leads`, `ending`   the end of a send.
-/

namespace DeviceHub.Session

open Command (Course Turn)

/-- the course of a send by what happened to it -/
def course (h : History) (n : Nat) (send : Command.Send) : Course :=
  Course.of send (turns h n send.id)

/-! ## What a happening leaves alone -/

/-- A happening leaves a send alone: it does not begin, it has no turn, and it gets no result. -/
structure Happening.Spares (e : Happening) (n : Nat) (id : String) : Prop where
  registers : e.registers n = false
  turn : e.turn? n id = none
  result : e.result? n = none

/-- A happening is a turn of one send. -/
structure Happening.Turns (e : Happening) (n : Nat) (t : Turn) : Prop where
  own : ∀ id, e.turn? n id = some t
  others : ∀ m, m ≠ n → ∀ id, e.Spares m id
  registers : e.registers n = false
  registration : e.registration? = none
  result : ∀ m, e.result? m = none
  ended : ∀ m r, e ≠ .ended m r

theorem turns_handed (n : Nat) (r : Except PublishError Unit) :
    (Happening.handed n r).Turns n (.handed r) where
  own _ := if_pos rfl
  others _ hm _ := ⟨rfl, if_neg (Ne.symm hm), rfl⟩
  registers := rfl
  registration := rfl
  result _ := rfl
  ended _ _ h := by cases h

theorem turns_looked (n : Nat) (cancelled expired : Bool) (now : Int64) :
    (Happening.looked n cancelled expired now).Turns n (.looked cancelled expired now) where
  own _ := if_pos rfl
  others _ hm _ := ⟨rfl, if_neg (Ne.symm hm), rfl⟩
  registers := rfl
  registration := rfl
  result _ := rfl
  ended _ _ h := by cases h

theorem Happening.spares_of_quiet {e : Happening} (hq : e.isQuiet = true) (n : Nat) (id : String) :
    e.Spares n id := by
  cases e <;> first | exact ⟨rfl, rfl, rfl⟩ | cases hq

section
variable {h : History} {e : Nat × Happening} {n : Nat} {send : Command.Send}

theorem course_same (hr : e.2.registers n = false) (ht : e.2.turn? n send.id = none) :
    course (e :: h) n send = course h n send := by
  unfold course
  rw [turns_cons h e n send.id hr, ht]

theorem course_spared (he : e.2.Spares n send.id) : course (e :: h) n send = course h n send :=
  course_same he.registers he.turn

theorem course_turn {t : Turn} (he : e.2.registers n = false) (ht : e.2.turn? n send.id = some t) :
    course (e :: h) n send = (course h n send).turn send t := by
  unfold course
  rw [turns_cons h e n send.id he, ht]
  rfl

theorem course_registered (time : Nat) (send' : Command.Send) (c : Message.Command) :
    course ((time, .registered n send' c) :: h) n send = {} := by
  unfold course
  rw [turns_registered]
  rfl

theorem course_append {new : History} (hnew : ∀ e ∈ new, e.2.Spares n send.id) :
    course (new ++ h) n send = course h n send := by
  induction new with
  | nil => rfl
  | cons e new ih =>
    exact (course_spared (hnew e List.mem_cons_self)).trans
      (ih fun f hf => hnew f (List.mem_cons_of_mem _ hf))

theorem result?_append {new : History} (hnew : ∀ e ∈ new, e.2.result? n = none) :
    result? (new ++ h) n = result? h n := by
  unfold result?
  rw [List.findSome?_append, List.findSome?_eq_none_iff.mpr hnew, Option.none_or]

theorem result?_of_not_hasEnded (he : hasEnded h n = false) : result? h n = none := by
  induction h with
  | nil => rfl
  | cons e h ih =>
    rw [hasEnded_cons, Bool.or_eq_false_iff] at he
    rw [result?_cons, ih he.2, Option.or_none]
    cases hres : e.2.result? n with
    | none => rfl
    | some r =>
      obtain ⟨t, e⟩ := e
      cases e with
      | resolved m q =>
        have hm : ¬ m = n := of_decide_eq_false he.1
        rw [show (Happening.resolved m q).result? n = if m = n then some q else none from rfl,
          if_neg hm] at hres
        cases hres
      | _ => cases hres

end

/-! ## What lies in a slot -/

/-- the acknowledgement that is handed over, if it has the id -/
def Happening.own? (id : String) : Happening → Option Message.Ack
  | .acknowledged a => if a.id = id ∧ a.id ≠ "" then some a else none
  | _ => none

theorem Happening.own?_eq_some {e : Happening} {id : String} {a : Message.Ack}
    (h : e.own? id = some a) : e = .acknowledged a ∧ a.id = id ∧ a.id ≠ "" := by
  cases e with
  | acknowledged b =>
    rw [own?] at h
    split at h
    · rename_i hown
      cases h
      exact ⟨rfl, hown⟩
    · cases h
  | _ => cases h

theorem Happening.bind_turn? (e : Happening) (n : Nat) (id : String) :
    (e.turn? n id).bind Turn.ack? = e.own? id := by
  cases e with
  | acknowledged a =>
    rw [turn?, own?]
    split <;> rfl
  | handed | looked =>
    rw [turn?]
    split <;> rfl
  | _ => rfl

/-- The slot of a send holds the first acknowledgement with its id since its registration. -/
theorem course_slot (h : History) (n : Nat) (send : Command.Send) :
    (course h n send).slot = ((since h n).filterMap (·.2.own? send.id)).getLast? := by
  rw [course, Course.of_slot, turns, List.filterMap_filterMap]
  simp only [Happening.bind_turn?]

/-- What lies in the slot of a send was handed over since its registration, and nothing before it
with the same id. -/
theorem call_of_slot {h : History} {n : Nat} {send : Command.Send} {a : Message.Ack}
    (hs : (course h n send).slot = some a) :
    ∃ newer time older, h = newer ++ (time, .acknowledged a) :: older ∧ a.id = send.id ∧
      a.id ≠ "" ∧ (∀ e ∈ newer, e.2.registers n = false) ∧
      ∀ e ∈ since older n, ∀ b, e.2 = .acknowledged b → b.id ≠ send.id := by
  rw [course_slot, List.getLast?_eq_some_iff] at hs
  obtain ⟨later, hs⟩ := hs
  -- the acknowledgement is the last one that the filter lets through
  obtain ⟨fore, rest, hsince, -, hrest⟩ := List.filterMap_eq_append_iff.mp hs
  obtain ⟨skipped, e, tail, rfl, -, he, htail⟩ := List.filterMap_eq_cons_iff.mp hrest
  obtain ⟨time, e⟩ := e
  obtain ⟨rfl, hid, hnamed⟩ := Happening.own?_eq_some he
  have hopen : ∀ f ∈ fore ++ skipped, f.2.registers n = false := fun f hf => by
    refine not_registers_of_mem_since (h := h) ?_
    rw [hsince, ← List.append_assoc]
    exact List.mem_append_left _ hf
  have hwhole : h = (fore ++ skipped) ++ (time, .acknowledged a) :: (tail ++
      h.dropWhile fun e => !e.2.registers n) := by
    calc h = since h n ++ h.dropWhile (fun e => !e.2.registers n) :=
          List.takeWhile_append_dropWhile.symm
      _ = _ := by
          rw [hsince]
          simp only [List.append_assoc, List.cons_append]
  refine ⟨_, time, _, hwhole, hid, hnamed, hopen, ?_⟩
  generalize tail ++ h.dropWhile (fun e => !e.2.registers n) = older at hwhole
  obtain rfl : since older n = tail := by
    rw [hwhole, since_append hopen, since_cons _ _ n rfl, ← List.append_assoc fore] at hsince
    exact (List.cons_eq_cons.mp (List.append_cancel_left hsince)).2
  intro f hf b hb hown
  have hnone := List.filterMap_eq_nil_iff.mp htail f hf
  rw [hb, Happening.own?, if_pos ⟨hown, fun hempty => hnamed (hid.trans (hown.symm.trans hempty))⟩]
    at hnone
  cases hnone

theorem registered_before {newer older : History} {e : Nat × Happening} {n : Nat}
    {send : Command.Send} (hmem : (n, send) ∈ registrations (newer ++ e :: older))
    (hnewer : ∀ f ∈ newer, f.2.registers n = false) (he : e.2.registers n = false) :
    (n, send) ∈ registrations older := by
  obtain ⟨time, c, hmem⟩ := mem_registrations.mp hmem
  have hself : (Happening.registered n send c).registers n = true := decide_eq_true rfl
  rcases List.mem_append.mp hmem with hmem | hmem
  · exact absurd (hself.symm.trans (hnewer _ hmem)) Bool.true_eq_false.mp
  · rcases List.mem_cons.mp hmem with rfl | hmem
    · exact absurd (hself.symm.trans he) Bool.true_eq_false.mp
    · exact mem_registrations.mpr ⟨time, c, hmem⟩

/-! ## A send that ends -/

/-- What happens just before a send gets its result: turns of its own at most. -/
structure Leads (new : History) (n : Nat) : Prop where
  spares : ∀ e ∈ new, ∀ m, m ≠ n → ∀ id, e.2.Spares m id
  registration : ∀ e ∈ new, e.2.registration? = none
  result : ∀ e ∈ new, ∀ m, e.2.result? m = none
  ended : ∀ e ∈ new, ∀ m r, e.2 ≠ .ended m r

theorem Leads.nil (n : Nat) : Leads [] n where
  spares _ he := by cases he
  registration _ he := by cases he
  result _ he := by cases he
  ended _ he := by cases he

theorem Happening.Turns.leads {e : Happening} {n : Nat} {t : Turn} (he : e.Turns n t) (time : Nat) :
    Leads [(time, e)] n := by
  have hmem {f : Nat × Happening} (hf : f ∈ [(time, e)]) : f.2 = e :=
    congrArg Prod.snd (List.mem_singleton.mp hf)
  exact {
    spares := fun f hf m hm id => hmem hf ▸ he.others m hm id
    registration := fun f hf => hmem hf ▸ he.registration
    result := fun f hf m => hmem hf ▸ he.result m
    ended := fun f hf m q => hmem hf ▸ he.ended m q }

/-- the send of a task gets its result, and the task ends -/
def ending (n : Nat) (r : Except Command.Error Message.Ack) (q : Result) (time : Nat) (h : History) :
    History := (time, .ended n q) :: (time, .resolved n r) :: h

theorem result?_ending (n : Nat) (r : Except Command.Error Message.Ack) (q : Result) (time : Nat)
    (h : History) : result? (ending n r q time h) n = some r := by
  rw [ending, result?_cons, result?_cons]
  show (if n = n then some r else none).or _ = some r
  rw [if_pos rfl]
  rfl

section
variable {new h : History} {n m : Nat} (hl : Leads new n) (r : Except Command.Error Message.Ack)
  (q : Result) (time : Nat)
include hl

theorem Leads.course_ending_of_ne (hm : m ≠ n) (send : Command.Send) :
    course (ending n r q time (new ++ h)) m send = course h m send := by
  have hended : Happening.Spares (.ended n q) m send.id := ⟨rfl, rfl, rfl⟩
  have hresolved : Happening.Spares (.resolved n r) m send.id := ⟨rfl, rfl, if_neg (Ne.symm hm)⟩
  rw [ending, course_spared hended, course_spared hresolved,
    course_append fun e he => hl.spares e he m hm send.id]

theorem Leads.result?_ending_of_ne (hm : m ≠ n) :
    result? (ending n r q time (new ++ h)) m = result? h m := by
  rw [ending, result?_cons, result?_cons, result?_append fun e he => hl.result e he m]
  show (none : Option _).or ((if n = m then some r else none).or _) = _
  rw [if_neg (Ne.symm hm), Option.none_or, Option.none_or]

theorem Leads.registrations_ending :
    registrations (ending n r q time (new ++ h)) = registrations h := by
  unfold registrations ending
  rw [List.filterMap_cons_none rfl, List.filterMap_cons_none rfl, List.filterMap_append,
    List.filterMap_eq_nil_iff.mpr hl.registration, List.nil_append]

variable {r q time}

theorem Leads.mem_resolved_ending {u : Nat} {r' : Except Command.Error Message.Ack}
    (hmem : (u, .resolved m r') ∈ ending n r q time (new ++ h)) :
    (m = n ∧ r' = r) ∨ (u, .resolved m r') ∈ h := by
  rcases List.mem_cons.mp hmem with heq | hmem
  · cases heq
  · rcases List.mem_cons.mp hmem with heq | hmem
    · cases heq
      exact Or.inl ⟨rfl, rfl⟩
    · refine Or.inr ((List.mem_append.mp hmem).resolve_left fun hnew => ?_)
      have hown : (Happening.resolved m r').result? m = some r' := if_pos rfl
      cases hown.symm.trans (hl.result _ hnew m)

theorem Leads.mem_ended_ending {u : Nat} {q' : Result}
    (hmem : (u, .ended m q') ∈ ending n r q time (new ++ h)) :
    (m = n ∧ q' = q) ∨ (u, .ended m q') ∈ h := by
  rcases List.mem_cons.mp hmem with heq | hmem
  · cases heq
    exact Or.inl ⟨rfl, rfl⟩
  · rcases List.mem_cons.mp hmem with heq | hmem
    · cases heq
    · exact Or.inr ((List.mem_append.mp hmem).resolve_left fun hnew => hl.ended _ hnew m q' rfl)

end

end DeviceHub.Session
