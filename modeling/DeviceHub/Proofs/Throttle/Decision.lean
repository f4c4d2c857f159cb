import DeviceHub.Proofs.Sorted
import DeviceHub.Throttle

/-!
# What comes of one sample

* `Throttle.suppresses_iff`  when an accepted sample suppresses another one, without bounds on numbers;
* `Throttle.find?_prune_eq_some`, `find?_prune_eq_none`   what a prune keeps;
* `Throttle.Decided`         all that can come of a sample, case by case;
* `Throttle.decided`         nothing else comes of it;
* `Throttle.Mutes`           samples of a key are suppressed at a time, and no sample of the same time
                             changes that.
-/

namespace DeviceHub.Throttle

variable {t : Throttle} {k : String} {at_ : Int64}

/-! ## Times -/

theorem suppresses_iff (hinterval : t.interval ≤ maxInt64) {last : Int64} :
    t.suppresses at_ last = true ↔
      last.toInt ≤ at_.toInt ∧ at_.toInt < last.toInt + t.interval := by
  unfold suppresses elapsed
  rw [Bool.and_eq_true, decide_eq_true_iff, decide_eq_true_iff]
  -- a difference that does not fit is at least the longest interval
  unfold maxInt64 at *
  omega

theorem not_suppresses_iff (hinterval : t.interval ≤ maxInt64) {last : Int64} :
    t.suppresses at_ last = false ↔
      at_.toInt < last.toInt ∨ last.toInt + t.interval ≤ at_.toInt := by
  rw [← Bool.not_eq_true, suppresses_iff hinterval]
  omega

theorem suppresses_self (henabled : t.isEnabled = true) (at_ : Int64) :
    t.suppresses at_ at_ = true := by
  have hpos : 0 < t.interval := of_decide_eq_true henabled
  have hzero : elapsed at_ at_ = 0 := by
    unfold elapsed
    rw [Int.sub_self]
    decide
  unfold suppresses
  rw [hzero, Bool.and_eq_true, decide_eq_true_iff, decide_eq_true_iff]
  omega

/-! ## Pruning -/

theorem find?_prune_eq_some (hsorted : Sorted.IsSorted t.last) {l : Int64} :
    Sorted.find? k (t.prune at_) = some l ↔
      Sorted.find? k t.last = some l ∧ t.suppresses at_ l = true := by
  unfold prune
  rw [Sorted.find?_filter _ hsorted, Option.filter_eq_some_iff]

theorem find?_prune_eq_none (hsorted : Sorted.IsSorted t.last) {l : Int64}
    (hl : Sorted.find? k t.last = some l) :
    Sorted.find? k (t.prune at_) = none ↔ t.suppresses at_ l = false := by
  unfold prune
  rw [Sorted.find?_filter _ hsorted, hl, Option.filter_some]
  cases t.suppresses at_ l <;> simp

/-! ## One sample -/

/-- What comes of a sample of a key: the decision, and the throttle after it. -/
inductive Decided (t : Throttle) (k : String) (at_ : Int64) : Bool × Throttle → Prop
  | suppressed (last : Int64) (hlast : Sorted.find? k t.last = some last)
      (hsuppressed : t.suppresses at_ last = true) : Decided t k at_ (false, t)
  | passed (last : Int64) (hlast : Sorted.find? k t.last = some last)
      (hpassed : t.suppresses at_ last = false) :
      Decided t k at_ (true, { t with last := Sorted.insert k at_ t.last })
  | tracked (hnew : Sorted.find? k t.last = none) (hroom : t.last.length < t.capacity) :
      Decided t k at_ (true, { t with last := Sorted.insert k at_ t.last })
  | pruned (hnew : Sorted.find? k t.last = none) (hfull : t.capacity ≤ t.last.length) :
      Decided t k at_ (true, { t with last := Sorted.insert k at_ (t.prune at_) })

theorem decided (henabled : t.isEnabled = true) (device metric : String) (at_ : Int64) :
    t.Decided (key device metric) at_ (t.allow device metric at_) := by
  unfold allow
  rw [if_pos henabled]
  simp only
  cases hfind : Sorted.find? (key device metric) t.last with
  | some last =>
    cases hsuppressed : t.suppresses at_ last with
    | true =>
      simp only [hsuppressed, if_true]
      exact .suppressed last hfind hsuppressed
    | false =>
      simp only [hsuppressed, Bool.false_eq_true, if_false]
      exact .passed last hfind hsuppressed
  | none =>
    by_cases hfull : t.capacity ≤ t.last.length
    · simp only [hfull, if_true]
      exact .pruned hfind hfull
    · simp only [hfull, if_false]
      exact .tracked hfind (Nat.lt_of_not_le hfull)

theorem allow_of_disabled (hdisabled : t.isEnabled = false) (device metric : String)
    (at_ : Int64) : t.allow device metric at_ = (true, t) := by
  unfold allow
  rw [hdisabled]
  exact if_neg Bool.false_ne_true

section
variable (t) (device metric : String) (at_ : Int64)

theorem allow_limits : (t.allow device metric at_).2.interval = t.interval ∧
    (t.allow device metric at_).2.capacity = t.capacity := by
  cases henabled : t.isEnabled with
  | false =>
    rw [allow_of_disabled henabled]
    exact ⟨rfl, rfl⟩
  | true =>
    have h := decided henabled device metric at_
    generalize t.allow device metric at_ = r at h ⊢
    cases h <;> exact ⟨rfl, rfl⟩

theorem allow_interval : (t.allow device metric at_).2.interval = t.interval :=
  (allow_limits t device metric at_).1

theorem allow_capacity : (t.allow device metric at_).2.capacity = t.capacity :=
  (allow_limits t device metric at_).2

theorem isEnabled_allow : (t.allow device metric at_).2.isEnabled = t.isEnabled := by
  unfold isEnabled
  rw [allow_interval]

end

/-! ## Samples of one time -/

/-- Samples of the key are suppressed at the time. -/
def Mutes (t : Throttle) (k : String) (at_ : Int64) : Prop :=
  ∃ last, Sorted.find? k t.last = some last ∧ t.suppresses at_ last = true

section
variable (henabled : t.isEnabled = true) (device metric : String)
include henabled

theorem Mutes.allow_eq (h : t.Mutes (key device metric) at_) :
    t.allow device metric at_ = (false, t) := by
  obtain ⟨last, hlast, hsuppressed⟩ := h
  unfold allow
  rw [if_pos henabled]
  simp only [hlast, hsuppressed, if_true]

theorem mutes_allow (at_ : Int64) :
    (t.allow device metric at_).2.Mutes (key device metric) at_ := by
  have hself := suppresses_self henabled at_
  have h := decided henabled device metric at_
  generalize t.allow device metric at_ = r at h ⊢
  cases h with
  | suppressed last hlast hsuppressed => exact ⟨last, hlast, hsuppressed⟩
  | _ => exact ⟨at_, by rw [Sorted.find?_insert, if_pos rfl], hself⟩

theorem Mutes.allow (h : t.Mutes k at_) : (t.allow device metric at_).2.Mutes k at_ := by
  obtain ⟨last, hlast, hsuppressed⟩ := h
  have hself := suppresses_self henabled at_
  -- whatever is kept for the key, or put in its place, suppresses at this time
  have hinsert {entries : List (String × Int64)} (hkept : Sorted.find? k entries = some last) :
      ({ t with last := Sorted.insert (key device metric) at_ entries } : Throttle).Mutes k at_ := by
    by_cases hk : key device metric = k
    · exact ⟨at_, by rw [Sorted.find?_insert, if_pos hk], hself⟩
    · exact ⟨last, by rw [Sorted.find?_insert, if_neg hk, hkept], hsuppressed⟩
  have hdecided := decided henabled device metric at_
  generalize t.allow device metric at_ = r at hdecided ⊢
  cases hdecided with
  | suppressed last' hlast' hsuppressed' => exact ⟨last, hlast, hsuppressed⟩
  | passed last' hlast' hpassed => exact hinsert hlast
  | tracked hnew hroom => exact hinsert hlast
  | pruned hnew hfull => exact hinsert (Sorted.find?_filter_of_pos hlast hsuppressed)

end

end DeviceHub.Throttle
