import DeviceHub.Proofs.Throttle.Ledger
import DeviceHub.Proofs.Throttle.Spacing

/-!
# Pairs that share a key

A throttle knows a device and a metric by one key, the two names with a bar between them.

* `Throttle.HasRoom`       no sample of a new key comes to a full throttle;
* `Throttle.decisionsOn`   what a throttle says to those samples that satisfy a condition;
* `Throttle.decisionsOn_key`   with room, samples of other keys change nothing for a key;
* `Throttle.key_eq_key_iff`    two pairs share a key when one device's name goes on with a bar and the
                           beginning of the other one's metric;
* `Throttle.pairs_are_throttled_by_key`   so pairs are throttled independently unless they share a key;
* `Throttle.pairs_may_share_a_window`     and if they do, one may suppress the other.
-/

namespace DeviceHub

def Sample.isOf (device metric : String) (x : Sample) : Bool :=
  x.device = device && x.metric = metric

theorem Sample.isOf_iff {device metric : String} {x : Sample} :
    x.isOf device metric = true ↔ x.device = device ∧ x.metric = metric := by
  unfold isOf
  rw [Bool.and_eq_true, decide_eq_true_iff, decide_eq_true_iff]

theorem Sample.key_of_isOf {device metric : String} {x : Sample}
    (h : x.isOf device metric = true) : x.key = Throttle.key device metric := by
  obtain ⟨rfl, rfl⟩ := isOf_iff.mp h
  rfl

namespace Throttle

/-- A sample of a key that is not tracked comes only when there is room for another one. -/
def HasRoom (t : Throttle) : List Sample → Prop
  | [] => True
  | x :: xs => (Sorted.find? x.key t.last = none → t.size < t.capacity) ∧ (t.step x).HasRoom xs

def decisionsOn (p : Sample → Bool) : Throttle → List Sample → List Bool
  | _, [] => []
  | t, x :: xs =>
    if p x then t.passes x :: decisionsOn p (t.step x) xs else decisionsOn p (t.step x) xs

theorem decisionsOn_congr {p q : Sample → Bool} {xs : List Sample} (h : ∀ x ∈ xs, p x = q x)
    (t : Throttle) : t.decisionsOn p xs = t.decisionsOn q xs := by
  induction xs generalizing t with
  | nil => rfl
  | cons x xs ih =>
    have hrest := ih (fun y hy => h y (List.mem_cons_of_mem x hy)) (t.step x)
    rw [decisionsOn, decisionsOn, h x List.mem_cons_self, hrest]

/-! ## One key among others -/

section
variable {t t' : Throttle} (henabled : t.isEnabled = true) (henabled' : t'.isEnabled = true)
include henabled

theorem find?_step_of_room {x : Sample} {k : String}
    (hroom : Sorted.find? x.key t.last = none → t.size < t.capacity) (hk : x.key ≠ k) :
    Sorted.find? k (t.step x).last = Sorted.find? k t.last := by
  have hdecided := decided_step henabled x
  generalize t.passes x = b, t.step x = t₁ at hdecided ⊢
  cases hdecided with
  | suppressed last hlast hsuppressed => rfl
  | passed last hlast hpassed => rw [Sorted.find?_insert, if_neg hk]
  | tracked hnew hroom => rw [Sorted.find?_insert, if_neg hk]
  | pruned hnew hfull => exact absurd (hroom hnew) (Nat.not_lt.mpr hfull)

include henabled'

theorem passes_congr (hinterval : t.interval = t'.interval) {x : Sample}
    (hsame : Sorted.find? x.key t.last = Sorted.find? x.key t'.last) :
    t.passes x = t'.passes x := by
  cases hfind : Sorted.find? x.key t.last with
  | none =>
    rw [passes_of_untracked henabled hfind, passes_of_untracked henabled' (hsame ▸ hfind)]
  | some last =>
    have hsuppresses : t.suppresses x.at_ last = t'.suppresses x.at_ last := by
      unfold suppresses
      rw [hinterval]
    rw [passes_of_tracked henabled hfind, passes_of_tracked henabled' (hsame ▸ hfind), hsuppresses]

theorem find?_step_congr (hinterval : t.interval = t'.interval) {x : Sample}
    (hsame : Sorted.find? x.key t.last = Sorted.find? x.key t'.last) :
    Sorted.find? x.key (t.step x).last = Sorted.find? x.key (t'.step x).last := by
  have hpasses := passes_congr henabled henabled' hinterval hsame
  cases h : t.passes x with
  | true => rw [find?_step_self henabled h, find?_step_self henabled' (hpasses ▸ h)]
  | false => rw [step_of_not_passes henabled h, step_of_not_passes henabled' (hpasses ▸ h), hsame]

/-- With room, the samples of a key are decided as they are when they come alone. -/
theorem decisionsOn_key (hinterval : t.interval = t'.interval) {k : String}
    (hsame : Sorted.find? k t.last = Sorted.find? k t'.last) {xs : List Sample}
    (hroom : t.HasRoom xs) :
    t.decisionsOn (fun x => x.key = k) xs = t'.decisions (xs.filter fun x => x.key = k) := by
  induction xs generalizing t t' with
  | nil => rfl
  | cons x xs ih =>
    obtain ⟨hx, hrest⟩ := hroom
    have hnext := (isEnabled_step t x).trans henabled
    by_cases hk : x.key = k
    · subst hk
      have hnext' := (isEnabled_step t' x).trans henabled'
      have hintervals : (t.step x).interval = (t'.step x).interval := by
        rw [interval_step, interval_step, hinterval]
      have htail := ih hnext hnext' hintervals
        (find?_step_congr henabled henabled' hinterval hsame) hrest
      have hpos : decide (x.key = x.key) = true := decide_eq_true rfl
      rw [decisionsOn, if_pos hpos, List.filter_cons, if_pos hpos, decisions, htail,
        passes_congr henabled henabled' hinterval hsame]
    · have hintervals : (t.step x).interval = t'.interval := by rw [interval_step, hinterval]
      have htail := ih hnext henabled' hintervals
        ((find?_step_of_room henabled hx hk).trans hsame) hrest
      have hneg : ¬ decide (x.key = k) = true := fun h => hk (of_decide_eq_true h)
      rw [decisionsOn, if_neg hneg, List.filter_cons, if_neg hneg, htail]

end

theorem decisionsOn_of_disabled {t : Throttle} (hdisabled : t.isEnabled = false)
    (p : Sample → Bool) (xs : List Sample) : t.decisionsOn p xs = t.decisions (xs.filter p) := by
  rw [decisions_of_disabled hdisabled]
  induction xs with
  | nil => rfl
  | cons x xs ih =>
    rw [decisionsOn, passes_of_disabled hdisabled, step_of_disabled hdisabled, ih,
      List.filter_cons]
    cases p x <;> rfl

/-! ## Keys of different pairs -/

theorem toList_key (device metric : String) :
    (key device metric).toList = device.toList ++ '|' :: metric.toList := by
  unfold key
  rw [String.toList_append, String.toList_append, List.append_assoc]
  rfl

/-- One device's name goes on with a bar, and what follows the bar begins the other metric's name. -/
def Overlaps (device metric device' metric' : String) : Prop :=
  ∃ middle : List Char, device'.toList = device.toList ++ '|' :: middle ∧
    metric.toList = middle ++ '|' :: metric'.toList

theorem Overlaps.key_eq {device metric device' metric' : String}
    (h : Overlaps device metric device' metric') : key device metric = key device' metric' := by
  obtain ⟨middle, hdevice, hmetric⟩ := h
  refine String.toList_inj.mp ?_
  rw [toList_key, toList_key, hdevice, hmetric, List.append_assoc, List.cons_append]

theorem key_eq_key_iff {device metric device' metric' : String} :
    key device metric = key device' metric' ↔
      device = device' ∧ metric = metric' ∨ Overlaps device metric device' metric' ∨
        Overlaps device' metric' device metric := by
  constructor
  · intro h
    have hlist := congrArg String.toList h
    rw [toList_key, toList_key, List.append_eq_append_iff] at hlist
    -- either name of a device begins the other; what is left of the longer one decides
    rcases hlist with ⟨left, hdevice, hmetric⟩ | ⟨left, hdevice, hmetric⟩
    · cases left with
      | nil =>
        rw [List.append_nil] at hdevice
        exact Or.inl ⟨String.toList_inj.mp hdevice.symm,
          String.toList_inj.mp (List.cons.inj hmetric).2⟩
      | cons c middle =>
        obtain ⟨rfl, hmiddle⟩ := List.cons.inj hmetric
        exact Or.inr (Or.inl ⟨middle, hdevice, hmiddle⟩)
    · cases left with
      | nil =>
        rw [List.append_nil] at hdevice
        exact Or.inl ⟨String.toList_inj.mp hdevice,
          String.toList_inj.mp (List.cons.inj hmetric).2.symm⟩
      | cons c middle =>
        obtain ⟨rfl, hmiddle⟩ := List.cons.inj hmetric
        exact Or.inr (Or.inr ⟨middle, hdevice, hmiddle⟩)
  · rintro (⟨rfl, rfl⟩ | h | h)
    · rfl
    · exact h.key_eq
    · exact h.key_eq.symm

/-! ## Pairs -/

theorem decisions_of_shared_key {t : Throttle} (henabled : t.isEnabled = true) {x y : Sample}
    (hkey : y.key = x.key) (htime : y.at_ = x.at_) : (t.step x).passes y = false := by
  have hmutes : (t.step x).Mutes y.key y.at_ := by
    rw [hkey, htime]
    exact mutes_allow henabled x.device x.metric x.at_
  exact congrArg Prod.fst (hmutes.allow_eq ((isEnabled_step t x).trans henabled))

/-- With room, a throttle decides on the samples of a device and a metric as if only samples with
their key had come, and so, unless another pair of the run has that key, as if only samples of this
device and metric had come.  Pairs share a key when their names overlap; then a sample of one of them
suppresses a sample of the other one that would pass alone. -/
theorem pairs_are_throttled_by_key (interval capacity : Nat) (device metric : String)
    (xs : List Sample) :
    let t := (Throttle.new interval).withCapacity capacity
    (t.HasRoom xs →
      t.decisionsOn (fun x => x.key = key device metric) xs =
        t.decisions (xs.filter fun x => x.key = key device metric)) ∧
    (t.HasRoom xs →
      (∀ x ∈ xs, ¬ Overlaps device metric x.device x.metric ∧
        ¬ Overlaps x.device x.metric device metric) →
      t.decisionsOn (Sample.isOf device metric) xs =
        t.decisions (xs.filter (Sample.isOf device metric))) ∧
    (0 < interval → ∀ device' metric' at_,
      Overlaps device metric device' metric' ∨ Overlaps device' metric' device metric →
      t.decisions [⟨device', metric', at_⟩] = [true] ∧
        t.decisions [⟨device, metric, at_⟩, ⟨device', metric', at_⟩] = [true, false]) := by
  intro t
  have hbyKey (hroom : t.HasRoom xs) :
      t.decisionsOn (fun x => x.key = key device metric) xs =
        t.decisions (xs.filter fun x => x.key = key device metric) := by
    cases henabled : t.isEnabled with
    | false => exact decisionsOn_of_disabled henabled _ xs
    | true => exact decisionsOn_key henabled henabled rfl rfl hroom
  refine ⟨hbyKey, fun hroom hnone => ?_, fun hinterval device' metric' at_ hoverlap => ?_⟩
  · have hsame : ∀ x ∈ xs, x.isOf device metric = decide (x.key = key device metric) := by
      intro x hx
      rw [Bool.eq_iff_iff, decide_eq_true_iff, Sample.isOf_iff]
      constructor
      · exact fun h => Sample.key_of_isOf (Sample.isOf_iff.mpr h)
      · intro hkey
        rcases key_eq_key_iff.mp hkey with h | h | h
        · exact h
        · exact absurd h (hnone x hx).2
        · exact absurd h (hnone x hx).1
    rw [decisionsOn_congr hsame, List.filter_congr hsame]
    exact hbyKey hroom
  · have henabled : t.isEnabled = true := by
      have hpos : 0 < min interval maxInt64 := Nat.lt_min.mpr ⟨hinterval, by decide⟩
      exact decide_eq_true hpos
    have hfirst (x : Sample) : t.passes x = true := passes_of_untracked henabled rfl
    have hkey : key device' metric' = key device metric := by
      rcases hoverlap with h | h
      · exact h.key_eq.symm
      · exact h.key_eq
    have hsecond : (t.step ⟨device, metric, at_⟩).passes ⟨device', metric', at_⟩ = false :=
      decisions_of_shared_key henabled hkey rfl
    rw [decisions, decisions, decisions, decisions, decisions, hfirst, hfirst, hsecond]
    exact ⟨rfl, rfl⟩

/-- Two devices whose samples come in turn, one of them with a metric whose name begins with a bar;
and two pairs that overlap. -/
theorem pairs_are_throttled_by_key_bars :
    let t := (Throttle.new 1000).withCapacity 3
    let xs : List Sample := [⟨"d", "|t", 5000⟩, ⟨"e", "t", 5100⟩, ⟨"d", "|t", 5999⟩,
      ⟨"e", "t", 6000⟩, ⟨"d", "|t", 6000⟩]
    (t.HasRoom xs ∧ t.decisionsOn (Sample.isOf "d" "|t") xs = [true, false, true] ∧
      t.decisions (xs.filter (Sample.isOf "d" "|t")) = [true, false, true]) ∧
    Overlaps "a" "b|c" "a|b" "c" ∧
      t.decisions [⟨"a", "b|c", 5000⟩, ⟨"a|b", "c", 5000⟩] = [true, false] := by
  intro t xs
  have hroom : t.HasRoom xs :=
    ⟨by decide +kernel, by decide +kernel, by decide +kernel, by decide +kernel,
      by decide +kernel, trivial⟩
  -- of two names of one length neither goes on with a bar
  have hnone : ∀ x ∈ xs, ¬ Overlaps "d" "|t" x.device x.metric ∧
      ¬ Overlaps x.device x.metric "d" "|t" := by
    have hlength (x : Sample) (hx : x ∈ xs) : x.device.toList.length = 1 := by
      revert x
      decide
    intro x hx
    constructor
    · rintro ⟨middle, hdevice, -⟩
      have := congrArg List.length hdevice
      simp [hlength x hx] at this
    · rintro ⟨middle, hdevice, -⟩
      have := congrArg List.length hdevice
      simp [hlength x hx] at this
  obtain ⟨-, hpair, -⟩ := pairs_are_throttled_by_key 1000 3 "d" "|t" xs
  have halone : t.decisions (xs.filter (Sample.isOf "d" "|t")) = [true, false, true] := by
    decide +kernel
  have hoverlaps : Overlaps "a" "b|c" "a|b" "c" := ⟨['b'], by decide, by decide⟩
  obtain ⟨-, -, hshared⟩ := pairs_are_throttled_by_key 1000 3 "a" "b|c" xs
  exact ⟨⟨hroom, (hpair hroom hnone).trans halone, halone⟩, hoverlaps,
    (hshared (by decide) "a|b" "c" 5000 (Or.inl hoverlaps)).2⟩

/-- The device `a|b` suppresses the metric `b|c` of the device `a` with its own metric `c`. -/
theorem pairs_may_share_a_window :
    ¬ ∀ (interval capacity : Nat) (device metric : String) (xs : List Sample),
      let t := (Throttle.new interval).withCapacity capacity
      t.HasRoom xs →
      t.decisionsOn (Sample.isOf device metric) xs =
        t.decisions (xs.filter (Sample.isOf device metric)) := by
  intro h
  have hsame := h 1000 100000 "a" "b|c" [⟨"a|b", "c", 5000⟩, ⟨"a", "b|c", 5000⟩]
    ⟨by decide +kernel, by decide +kernel, trivial⟩
  exact absurd hsame (by decide +kernel)

end Throttle

end DeviceHub
