import DeviceHub.Proofs.Throttle.Spacing

/-!
# What a throttle tracks

* `Throttle.lastTime`      the time of the last sample of a key among some;
* `Throttle.Prunes`        a sample of a new key comes to a full throttle;
* `Throttle.IsFresh`       a tracked time is not ahead, and less than an interval back;
* `Throttle.Takes`         what a sample does to a throttle, key by key;
* `Throttle.takes`         every sample does so;
* `Throttle.find?_after_eq_some`   what is tracked after samples is the last time of the key that passed,
                           or was tracked before;
* `Throttle.tracked_times_are_current`   so the entries of a throttle are the last times that passed, and
                           beyond the capacity no entry is stale when a key is added.
-/

namespace DeviceHub.Throttle

variable {t : Throttle} {k : String} {l : Int64}

def lastTime (k : String) (xs : List Sample) : Option Int64 :=
  (xs.filter fun x => x.key = k).getLast?.map Sample.at_

theorem lastTime_cons (k : String) (x : Sample) (xs : List Sample) :
    lastTime k (x :: xs) = (lastTime k xs).or (if x.key = k then some x.at_ else none) := by
  unfold lastTime
  rw [List.filter_cons]
  by_cases hk : x.key = k
  · rw [if_pos (decide_eq_true hk), List.getLast?_cons, if_pos hk]
    cases (xs.filter fun x => x.key = k).getLast? <;> rfl
  · rw [if_neg fun h => hk (of_decide_eq_true h), if_neg hk, Option.or_none]

/-- A sample of a new key comes to a full throttle. -/
def Prunes (t : Throttle) (x : Sample) : Prop :=
  Sorted.find? x.key t.last = none ∧ t.capacity ≤ t.size

/-- A tracked time is not ahead of a sample's time, and less than an interval back. -/
def IsFresh (t : Throttle) (at_ last : Int64) : Prop :=
  0 ≤ at_.toInt - last.toInt ∧ at_.toInt - last.toInt < t.interval

instance (t : Throttle) (at_ last : Int64) : Decidable (t.IsFresh at_ last) :=
  inferInstanceAs (Decidable (_ ∧ _))

/-- What a sample does to a throttle. -/
structure Takes (t : Throttle) (x : Sample) : Prop where
  untracked : Sorted.find? x.key t.last = none → t.passes x = true
  tracked : ∀ last, Sorted.find? x.key t.last = some last →
    (t.passes x = true ↔ ¬ t.IsFresh x.at_ last)
  suppressed : t.passes x = false → t.step x = t
  passed : t.passes x = true → Sorted.find? x.key (t.step x).last = some x.at_
  /-- Of the other keys a prune drops those of which a sample of this time would pass. -/
  dropped : ∀ y last, y.key ≠ x.key → y.at_ = x.at_ → Sorted.find? y.key t.last = some last →
    t.Prunes x → t.passes y = true → Sorted.find? y.key (t.step x).last = none
  kept : ∀ y last, y.key ≠ x.key → y.at_ = x.at_ → Sorted.find? y.key t.last = some last →
    ¬ (t.Prunes x ∧ t.passes y = true) → Sorted.find? y.key (t.step x).last = some last
  absent : ∀ k, k ≠ x.key → Sorted.find? k t.last = none → Sorted.find? k (t.step x).last = none
  added : Sorted.find? x.key t.last = none →
    (t.step x).size ≤ t.capacity ∨ ∀ e ∈ (t.step x).last, t.IsFresh x.at_ e.2
  stale : Sorted.find? x.key t.last = none →
    ((t.step x).last.filter fun e => ¬ t.IsFresh x.at_ e.2).length ≤ t.capacity

/-! ## One sample -/

theorem suppresses_iff_isFresh (hinterval : t.interval ≤ maxInt64) {at_ : Int64} :
    t.suppresses at_ l = true ↔ t.IsFresh at_ l := by
  rw [suppresses_iff hinterval]
  unfold IsFresh
  omega

section
variable (henabled : t.isEnabled = true) (hsound : t.IsSound)
include henabled hsound

theorem drops_iff {x y : Sample} (htime : y.at_ = x.at_) (hl : Sorted.find? y.key t.last = some l) :
    t.Drops l x ↔ t.Prunes x ∧ t.passes y = true := by
  rw [passes_iff_of_tracked henabled hsound hl, htime]
  exact and_assoc.symm

/-- When a key is added, there was room for it, or all that is tracked is fresh. -/
theorem size_step_or_fresh {x : Sample} (hnew : Sorted.find? x.key t.last = none) :
    (t.step x).size ≤ t.capacity ∨ ∀ e ∈ (t.step x).last, t.IsFresh x.at_ e.2 := by
  have hdecided := decided_step henabled x
  generalize t.passes x = b, t.step x = t' at hdecided ⊢
  cases hdecided with
  | suppressed last hlast hsuppressed => cases hnew.symm.trans hlast
  | passed last hlast hpassed => cases hnew.symm.trans hlast
  | tracked hnew hroom =>
    exact Or.inl ((Sorted.length_insert_le _ _ _).trans (Nat.succ_le_of_lt hroom))
  | pruned hnew hfull =>
    refine Or.inr fun e he => (suppresses_iff_isFresh hsound.interval).mp ?_
    rcases Sorted.mem_insert he with rfl | he
    · exact suppresses_self henabled x.at_
    · exact (List.mem_filter.mp he).2

theorem takes (x : Sample) : t.Takes x where
  untracked := passes_of_untracked henabled
  tracked last hlast := by
    rw [passes_of_tracked henabled hlast, Bool.not_eq_true', ← suppresses_iff_isFresh hsound.interval,
      Bool.not_eq_true]
  suppressed := step_of_not_passes henabled
  passed := find?_step_self henabled
  dropped y last hk htime hlast hprunes hpasses := by
    have hdrops := (drops_iff henabled hsound htime hlast).mpr ⟨hprunes, hpasses⟩
    rcases find?_step_of_ne henabled hsound (Ne.symm hk) hlast with ⟨-, hnone⟩ | ⟨hnot, -⟩
    · exact hnone
    · exact absurd hdrops hnot
  kept y last hk htime hlast hnot := by
    rw [← drops_iff henabled hsound htime hlast] at hnot
    rcases find?_step_of_ne henabled hsound (Ne.symm hk) hlast with ⟨hdrops, -⟩ | ⟨-, hkept⟩
    · exact absurd hdrops hnot
    · exact hkept
  absent k hk hlast := find?_step_of_untracked henabled (Ne.symm hk) hlast
  added := size_step_or_fresh henabled hsound
  stale hnew := by
    rcases size_step_or_fresh henabled hsound hnew with hroom | hfresh
    · exact (List.length_filter_le _ _).trans hroom
    · rw [List.filter_eq_nil_iff.mpr fun e he => by simpa using hfresh e he]
      exact Nat.zero_le _

theorem find?_step_eq_some {x : Sample} (h : Sorted.find? k (t.step x).last = some l) :
    (t.passes x = true ∧ x.key = k ∧ x.at_ = l) ∨
      (¬ (t.passes x = true ∧ x.key = k) ∧ Sorted.find? k t.last = some l) := by
  by_cases hk : x.key = k
  · subst hk
    cases hpasses : t.passes x with
    | true =>
      rw [find?_step_self henabled hpasses] at h
      exact Or.inl ⟨rfl, rfl, Option.some.inj h⟩
    | false =>
      rw [step_of_not_passes henabled hpasses] at h
      exact Or.inr ⟨fun hp => Bool.false_ne_true hp.1, h⟩
  · refine Or.inr ⟨fun hp => hk hp.2, ?_⟩
    cases hlast : Sorted.find? k t.last with
    | none => cases (find?_step_of_untracked henabled hk hlast).symm.trans h
    | some last =>
      rcases find?_step_of_ne henabled hsound hk hlast with ⟨-, hnone⟩ | ⟨-, hkept⟩
      · cases hnone.symm.trans h
      · exact hkept.symm.trans h

/-! ## Several samples -/

theorem find?_after_eq_some {xs : List Sample} (h : Sorted.find? k (t.after xs).last = some l) :
    (lastTime k (t.passed xs)).or (Sorted.find? k t.last) = some l := by
  induction xs generalizing t with
  | nil => exact h
  | cons x xs ih =>
    have hrest := ih ((isEnabled_step t x).trans henabled) (hsound.step x) h
    rw [passed]
    cases hlater : lastTime k ((t.step x).passed xs) with
    | some later =>
      rw [hlater, Option.some_or] at hrest
      split
      · rw [lastTime_cons, hlater, Option.some_or, Option.some_or, hrest]
      · rw [hlater, Option.some_or, hrest]
    | none =>
      rw [hlater, Option.none_or] at hrest
      rcases find?_step_eq_some henabled hsound hrest with ⟨hpasses, hk, rfl⟩ | ⟨hnot, hbefore⟩
      · rw [if_pos hpasses, lastTime_cons, hlater, if_pos hk]
        rfl
      · split
        · rename_i hpasses
          rw [lastTime_cons, hlater, if_neg fun hk => hnot ⟨hpasses, hk⟩]
          exact hbefore
        · rw [hlater]
          exact hbefore

end

/-! ## From the beginning -/

/-- After any samples every tracked key has the time of its last sample that passed.  A sample of a new
key passes, one of a tracked key unless the time of the key is fresh.  One that is suppressed changes
nothing, and one that passes is tracked.  A prune drops the keys of which a sample of this time would
pass, nothing else is dropped, and no other key is added.  When a key is added, either no more keys are
tracked than the capacity, or all of their times are fresh. -/
theorem tracked_times_are_current (interval capacity : Nat) (hinterval : 0 < interval)
    (xs : List Sample) :
    let new := (Throttle.new interval).withCapacity capacity
    let t := new.after xs
    (t.interval = min interval maxInt64 ∧ t.capacity = max capacity 1) ∧
      (∀ k last, Sorted.find? k t.last = some last → lastTime k (new.passed xs) = some last) ∧
      ∀ x, t.Takes x := by
  intro new t
  have hnew : new.isEnabled = true := isEnabled_new hinterval capacity
  have hsound : new.IsSound := isSound_new interval capacity
  refine ⟨after_limits new xs, fun k last hlast => ?_, fun x => ?_⟩
  · have h := find?_after_eq_some hnew hsound hlast
    have hnone : Sorted.find? k new.last = none := rfl
    rwa [hnone, Option.or_none] at h
  · exact takes ((isEnabled_after new xs).trans hnew) (hsound.after xs) x

/-- Room for one key, and three that come: the first prune drops one, the last drops the next one and
keeps a fresh one beyond the capacity. -/
theorem tracked_times_are_current_crowd :
    let new := (Throttle.new 1000).withCapacity 1
    let t := new.after [⟨"d", "a", 900⟩, ⟨"d", "b", 5000⟩, ⟨"d", "c", 5100⟩, ⟨"d", "b", 5500⟩]
    let x : Sample := ⟨"d", "a", 6050⟩
    t.last = [("d|b", 5000), ("d|c", 5100)] ∧ t.Prunes x ∧
      Sorted.find? "d|b" (t.step x).last = none ∧
      Sorted.find? "d|c" (t.step x).last = some 5100 ∧
      ¬ (t.step x).size ≤ t.capacity ∧ ∀ e ∈ (t.step x).last, t.IsFresh x.at_ e.2 := by
  intro new t x
  obtain ⟨-, -, h⟩ := tracked_times_are_current 1000 1 (by decide)
    [⟨"d", "a", 900⟩, ⟨"d", "b", 5000⟩, ⟨"d", "c", 5100⟩, ⟨"d", "b", 5500⟩]
  have hprunes : t.Prunes x := ⟨by decide +kernel, by decide +kernel⟩
  have hstale := (h x).dropped ⟨"d", "b", 6050⟩ 5000 (by decide) rfl (by decide +kernel) hprunes
    (by decide +kernel)
  have hlive := (h x).kept ⟨"d", "c", 6050⟩ 5100 (by decide) rfl (by decide +kernel)
    fun hpasses => absurd hpasses.2 (by decide +kernel)
  have hbeyond : ¬ (t.step x).size ≤ t.capacity := by decide +kernel
  exact ⟨by decide +kernel, hprunes, hstale, hlive, hbeyond,
    ((h x).added hprunes.1).resolve_left hbeyond⟩

end DeviceHub.Throttle
