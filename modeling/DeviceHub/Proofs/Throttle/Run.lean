import DeviceHub.Proofs.Throttle.Decision

/-!
# Runs of a throttle

* `Sample`               a sample of a metric of a device, with its time;
* `Throttle.passes`, `Throttle.step`   whether a sample passes, and the throttle after it;
* `Throttle.after`, `Throttle.decisions`, `Throttle.passed`   the throttle after samples, what it said to
                         each of them, and the samples that passed;
* `Throttle.IsSound`     times are kept in the order of keys, and the interval fits.
-/

namespace DeviceHub

/-- a sample of a metric of a device -/
structure Sample where
  device : String
  metric : String
  at_ : Int64
deriving DecidableEq

def Sample.key (x : Sample) : String := Throttle.key x.device x.metric

namespace Throttle

def passes (t : Throttle) (x : Sample) : Bool := (t.allow x.device x.metric x.at_).1

def step (t : Throttle) (x : Sample) : Throttle := (t.allow x.device x.metric x.at_).2

def after (t : Throttle) (xs : List Sample) : Throttle := xs.foldl step t

def decisions : Throttle → List Sample → List Bool
  | _, [] => []
  | t, x :: xs => t.passes x :: decisions (t.step x) xs

def passed : Throttle → List Sample → List Sample
  | _, [] => []
  | t, x :: xs => if t.passes x then x :: passed (t.step x) xs else passed (t.step x) xs

theorem after_cons (t : Throttle) (x : Sample) (xs : List Sample) :
    t.after (x :: xs) = (t.step x).after xs := rfl

theorem passed_cons_of_passes {t : Throttle} {x : Sample} (h : t.passes x = true)
    (xs : List Sample) : t.passed (x :: xs) = x :: (t.step x).passed xs := if_pos h

theorem mem_passed_cons {t : Throttle} {x y : Sample} {xs : List Sample}
    (h : y ∈ (t.step x).passed xs) : y ∈ t.passed (x :: xs) := by
  rw [passed]
  split
  · exact List.mem_cons_of_mem _ h
  · exact h

variable {t : Throttle}

theorem passes_of_disabled (hdisabled : t.isEnabled = false) (x : Sample) : t.passes x = true :=
  congrArg Prod.fst (allow_of_disabled hdisabled x.device x.metric x.at_)

theorem step_of_disabled (hdisabled : t.isEnabled = false) (x : Sample) : t.step x = t :=
  congrArg Prod.snd (allow_of_disabled hdisabled x.device x.metric x.at_)

theorem decided_step (henabled : t.isEnabled = true) (x : Sample) :
    t.Decided x.key x.at_ (t.passes x, t.step x) := decided henabled x.device x.metric x.at_

theorem interval_step (t : Throttle) (x : Sample) : (t.step x).interval = t.interval :=
  allow_interval t x.device x.metric x.at_

theorem capacity_step (t : Throttle) (x : Sample) : (t.step x).capacity = t.capacity :=
  allow_capacity t x.device x.metric x.at_

theorem isEnabled_step (t : Throttle) (x : Sample) : (t.step x).isEnabled = t.isEnabled :=
  isEnabled_allow t x.device x.metric x.at_

theorem after_limits (t : Throttle) (xs : List Sample) :
    (t.after xs).interval = t.interval ∧ (t.after xs).capacity = t.capacity := by
  induction xs generalizing t with
  | nil => exact ⟨rfl, rfl⟩
  | cons x xs ih =>
    obtain ⟨hinterval, hcapacity⟩ := ih (t.step x)
    rw [interval_step] at hinterval
    rw [capacity_step] at hcapacity
    exact ⟨hinterval, hcapacity⟩

theorem isEnabled_after (t : Throttle) (xs : List Sample) :
    (t.after xs).isEnabled = t.isEnabled := by
  unfold isEnabled
  rw [(after_limits t xs).1]

theorem mem_step (henabled : t.isEnabled = true) {x : Sample} {e : String × Int64}
    (h : e ∈ (t.step x).last) : e = (x.key, x.at_) ∨ e ∈ t.last := by
  have hdecided := decided_step henabled x
  generalize t.passes x = b, t.step x = t' at hdecided h
  cases hdecided with
  | suppressed last hlast hsuppressed => exact Or.inr h
  | passed last hlast hpassed => exact Sorted.mem_insert h
  | tracked hnew hroom => exact Sorted.mem_insert h
  | pruned hnew hfull => exact (Sorted.mem_insert h).imp_right List.mem_of_mem_filter

/-! ## Sound throttles -/

structure IsSound (t : Throttle) : Prop where
  interval : t.interval ≤ maxInt64
  sorted : Sorted.IsSorted t.last

theorem isSound_new (interval capacity : Nat) :
    ((Throttle.new interval).withCapacity capacity).IsSound where
  interval := Nat.min_le_right _ _
  sorted := Sorted.isSorted_nil

theorem isEnabled_new {interval : Nat} (hinterval : 0 < interval) (capacity : Nat) :
    ((Throttle.new interval).withCapacity capacity).isEnabled = true := by
  have hpos : 0 < min interval maxInt64 := Nat.lt_min.mpr ⟨hinterval, by decide⟩
  exact decide_eq_true hpos

theorem IsSound.step (h : t.IsSound) (x : Sample) : (t.step x).IsSound where
  interval := by
    rw [interval_step]
    exact h.interval
  sorted := by
    cases henabled : t.isEnabled with
    | false =>
      rw [step_of_disabled henabled]
      exact h.sorted
    | true =>
      have hdecided := decided_step henabled x
      generalize t.passes x = b, t.step x = t' at hdecided ⊢
      cases hdecided with
      | suppressed last hlast hsuppressed => exact h.sorted
      | passed last hlast hpassed => exact Sorted.isSorted_insert _ _ h.sorted
      | tracked hnew hroom => exact Sorted.isSorted_insert _ _ h.sorted
      | pruned hnew hfull =>
        exact Sorted.isSorted_insert _ _ (Sorted.isSorted_filter _ h.sorted)

theorem IsSound.after (h : t.IsSound) (xs : List Sample) : (t.after xs).IsSound := by
  induction xs generalizing t with
  | nil => exact h
  | cons x xs ih => exact ih (h.step x)

end Throttle

end DeviceHub
