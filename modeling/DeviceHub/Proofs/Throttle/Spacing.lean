import DeviceHub.Proofs.Throttle.Run

/-!
# How far apart samples pass

A prune judges all entries by the time of the sample that causes it.  So a sample of one device may
drop the entry of another one, whose clock is behind or ahead.

* `Throttle.Drops`, `DropsIn`      a sample, or one of several, drops a time that was tracked;
* `Throttle.kept_or_dropped`       as long as no sample of its key passes, a time is tracked until it is
                                   dropped;
* `Throttle.passed_samples_are_apart`    a sample passes an interval after the last one of its device and
                                   metric, or when that one was dropped;
* `Throttle.passed_samples_may_be_close`   which lets samples pass that are too close.
-/

namespace DeviceHub.Throttle

variable {t : Throttle} {k : String} {last : Int64}

/-- A sample of a new key comes to a full throttle, and `last` is ahead of it or an interval behind. -/
def Drops (t : Throttle) (last : Int64) (z : Sample) : Prop :=
  Sorted.find? z.key t.last = none ∧ t.capacity ≤ t.size ∧
    (z.at_.toInt < last.toInt ∨ last.toInt + t.interval ≤ z.at_.toInt)

/-- One of some samples does, when they are taken one after the other. -/
def DropsIn (t : Throttle) (last : Int64) (zs : List Sample) : Prop :=
  ∃ older z newer, zs = older ++ z :: newer ∧ (t.after older).Drops last z

theorem not_dropsIn_nil : ¬ t.DropsIn last [] := by
  rintro ⟨older, z, newer, hnil, -⟩
  exact List.append_ne_nil_of_right_ne_nil older (List.cons_ne_nil z newer) hnil.symm

theorem dropsIn_cons {z : Sample} {zs : List Sample} :
    t.DropsIn last (z :: zs) ↔ t.Drops last z ∨ (t.step z).DropsIn last zs := by
  constructor
  · rintro ⟨older, y, newer, hsplit, hdrops⟩
    cases older with
    | nil =>
      obtain ⟨rfl, -⟩ := List.cons.inj hsplit
      exact Or.inl hdrops
    | cons o older =>
      obtain ⟨rfl, rfl⟩ := List.cons.inj hsplit
      exact Or.inr ⟨older, y, newer, rfl, hdrops⟩
  · rintro (hdrops | ⟨older, y, newer, rfl, hdrops⟩)
    · exact ⟨[], z, zs, rfl, hdrops⟩
    · exact ⟨z :: older, y, newer, rfl, hdrops⟩

/-! ## One sample -/

section
variable (henabled : t.isEnabled = true)
include henabled

theorem passes_of_untracked {z : Sample} (hnone : Sorted.find? z.key t.last = none) :
    t.passes z = true := by
  have hdecided := decided_step henabled z
  generalize t.passes z = b, t.step z = t' at hdecided ⊢
  cases hdecided with
  | suppressed l hl hsuppressed => cases hnone.symm.trans hl
  | _ => rfl

theorem passes_of_tracked {z : Sample}
    (hlast : Sorted.find? z.key t.last = some last) : t.passes z = !t.suppresses z.at_ last := by
  have hdecided := decided_step henabled z
  generalize t.passes z = b, t.step z = t' at hdecided ⊢
  cases hdecided with
  | suppressed l hl hsuppressed =>
    obtain rfl := Option.some.inj (hlast.symm.trans hl)
    rw [hsuppressed, Bool.not_true]
  | passed l hl hpassed =>
    obtain rfl := Option.some.inj (hlast.symm.trans hl)
    rw [hpassed, Bool.not_false]
  | tracked hnew hroom => cases hnew.symm.trans hlast
  | pruned hnew hfull => cases hnew.symm.trans hlast

theorem passes_iff_of_tracked (hsound : t.IsSound) {z : Sample}
    (hlast : Sorted.find? z.key t.last = some last) :
    t.passes z = true ↔
      z.at_.toInt < last.toInt ∨ last.toInt + t.interval ≤ z.at_.toInt := by
  rw [← not_suppresses_iff hsound.interval, passes_of_tracked henabled hlast, Bool.not_eq_true']

theorem find?_step_self {z : Sample} (hpasses : t.passes z = true) :
    Sorted.find? z.key (t.step z).last = some z.at_ := by
  have hdecided := decided_step henabled z
  generalize t.passes z = b, t.step z = t' at hdecided hpasses ⊢
  cases hdecided with
  | suppressed l hl hsuppressed => cases hpasses
  | _ => rw [Sorted.find?_insert, if_pos rfl]

theorem step_of_not_passes {z : Sample} (hpasses : t.passes z = false) : t.step z = t := by
  have hdecided := decided_step henabled z
  generalize t.passes z = b, t.step z = t' at hdecided hpasses ⊢
  cases hdecided with
  | suppressed l hl hsuppressed => rfl
  | _ => cases hpasses

theorem find?_step_of_untracked {z : Sample} (hk : z.key ≠ k)
    (hnone : Sorted.find? k t.last = none) : Sorted.find? k (t.step z).last = none := by
  rw [← Option.not_isSome_iff_eq_none, Sorted.isSome_find?] at hnone ⊢
  intro hmem
  obtain ⟨e, he, rfl⟩ := List.mem_map.mp hmem
  rcases mem_step henabled he with rfl | he
  · exact hk rfl
  · exact hnone (List.mem_map_of_mem he)

theorem find?_step_of_ne (hsound : t.IsSound) {z : Sample} (hk : z.key ≠ k)
    (hlast : Sorted.find? k t.last = some last) :
    (t.Drops last z ∧ Sorted.find? k (t.step z).last = none) ∨
    (¬ t.Drops last z ∧ Sorted.find? k (t.step z).last = some last) := by
  have hdecided := decided_step henabled z
  generalize t.passes z = b, t.step z = t' at hdecided ⊢
  cases hdecided with
  | suppressed l hl hsuppressed =>
    refine Or.inr ⟨fun hdrops => ?_, hlast⟩
    cases hdrops.1.symm.trans hl
  | passed l hl hpassed =>
    refine Or.inr ⟨fun hdrops => ?_, ?_⟩
    · cases hdrops.1.symm.trans hl
    · rw [Sorted.find?_insert, if_neg hk, hlast]
  | tracked hnew hroom =>
    refine Or.inr ⟨fun hdrops => ?_, ?_⟩
    · exact absurd hroom (Nat.not_lt.mpr hdrops.2.1)
    · rw [Sorted.find?_insert, if_neg hk, hlast]
  | pruned hnew hfull =>
    rw [Sorted.find?_insert, if_neg hk]
    cases hsuppressed : t.suppresses z.at_ last with
    | true =>
      have htime := (suppresses_iff hsound.interval).mp hsuppressed
      refine Or.inr ⟨fun hdrops => ?_, (find?_prune_eq_some hsound.sorted).mpr ⟨hlast, hsuppressed⟩⟩
      have := hdrops.2.2
      omega
    | false =>
      have htime := (not_suppresses_iff hsound.interval).mp hsuppressed
      exact Or.inl ⟨⟨hnew, hfull, htime⟩, (find?_prune_eq_none hsound.sorted hlast).mpr hsuppressed⟩

/-! ## Several samples -/

theorem find?_after_of_untracked {zs : List Sample} (hzs : ∀ z ∈ t.passed zs, z.key ≠ k)
    (hnone : Sorted.find? k t.last = none) : Sorted.find? k (t.after zs).last = none := by
  induction zs generalizing t with
  | nil => exact hnone
  | cons z zs ih =>
    have hk : z.key ≠ k := by
      intro hk
      -- a sample of the key would pass
      have hpasses := passes_of_untracked henabled (hk ▸ hnone)
      rw [passed_cons_of_passes hpasses] at hzs
      exact hzs z List.mem_cons_self hk
    exact ih ((isEnabled_step t z).trans henabled) (fun y hy => hzs y (mem_passed_cons hy))
      (find?_step_of_untracked henabled hk hnone)

/-- As long as no sample of its key passes, a time is tracked until it is dropped. -/
theorem kept_or_dropped (hsound : t.IsSound) {zs : List Sample}
    (hzs : ∀ z ∈ t.passed zs, z.key ≠ k) (hlast : Sorted.find? k t.last = some last) :
    (t.DropsIn last zs ∧ Sorted.find? k (t.after zs).last = none) ∨
    (¬ t.DropsIn last zs ∧ Sorted.find? k (t.after zs).last = some last) := by
  induction zs generalizing t with
  | nil => exact Or.inr ⟨not_dropsIn_nil, hlast⟩
  | cons z zs ih =>
    have henabled' := (isEnabled_step t z).trans henabled
    have hrest : ∀ y ∈ (t.step z).passed zs, y.key ≠ k :=
      fun y hy => hzs y (mem_passed_cons hy)
    rw [dropsIn_cons, after_cons]
    by_cases hk : z.key = k
    · have hnot : t.passes z = false := by
        rw [Bool.eq_false_iff]
        intro hpasses
        rw [passed_cons_of_passes hpasses] at hzs
        exact hzs z List.mem_cons_self hk
      have hdrops : ¬ t.Drops last z := fun hdrops => by
        cases hdrops.1.symm.trans (hk ▸ hlast)
      rw [or_iff_right hdrops]
      refine ih henabled' (hsound.step z) hrest ?_
      rw [step_of_not_passes henabled hnot]
      exact hlast
    · rcases find?_step_of_ne henabled hsound hk hlast with ⟨hdrops, hnone⟩ | ⟨hdrops, hkept⟩
      · exact Or.inl ⟨Or.inl hdrops, find?_after_of_untracked henabled' hrest hnone⟩
      · rw [or_iff_right hdrops]
        exact ih henabled' (hsound.step z) hrest hkept

end

/-! ## The next sample that passes -/

/-- After a sample `x` that passed, with no other one of its device and metric that passed since, and
none of another pair with the same key, `y` of the same device and metric passes when it is at least
the interval newer, or when a sample in between made the throttle drop the time of `x`. -/
theorem passed_samples_are_apart (interval capacity : Nat) (hinterval : 0 < interval)
    (before between : List Sample) (x y : Sample)
    (hsame : y.device = x.device ∧ y.metric = x.metric) (hlater : x.at_.toInt ≤ y.at_.toInt) :
    let t := ((Throttle.new interval).withCapacity capacity).after before
    t.passes x = true →
    (∀ z ∈ (t.step x).passed between, ¬ (z.device = x.device ∧ z.metric = x.metric)) →
    (∀ z ∈ (t.step x).passed between, z.key = x.key → z.device = x.device ∧ z.metric = x.metric) →
    (((t.step x).after between).passes y = true ↔
      (min interval maxInt64 : Nat) ≤ y.at_.toInt - x.at_.toInt ∨
        (t.step x).DropsIn x.at_ between) ∧
    (0 < x.at_.toInt →
      ((min interval maxInt64 : Nat) ≤ y.at_.toInt - x.at_.toInt ↔
        interval ≤ y.at_.toInt - x.at_.toInt)) := by
  intro t hpasses hnext hkeys
  have hnew : ((Throttle.new interval).withCapacity capacity).isEnabled = true := by
    have hpos : 0 < min interval maxInt64 := Nat.lt_min.mpr ⟨hinterval, by decide⟩
    exact decide_eq_true hpos
  have henabled : t.isEnabled = true := (isEnabled_after _ before).trans hnew
  have hsound : t.IsSound := (isSound_new interval capacity).after before
  have henabled' : (t.step x).isEnabled = true := (isEnabled_step t x).trans henabled
  have hsound' : (t.step x).IsSound := hsound.step x
  have hbetween : ∀ z ∈ (t.step x).passed between, z.key ≠ x.key := fun z hz hk =>
    hnext z hz (hkeys z hz hk)
  have hkey : y.key = x.key := by
    unfold Sample.key
    rw [hsame.1, hsame.2]
  have hlimit : ((t.step x).after between).interval = min interval maxInt64 := by
    rw [(after_limits _ between).1, interval_step, (after_limits _ before).1]
    rfl
  refine ⟨?_, fun hpos => ?_⟩
  · have henabledy := (isEnabled_after (t.step x) between).trans henabled'
    rcases kept_or_dropped henabled' hsound' hbetween (find?_step_self henabled hpasses) with
      ⟨hdrops, hnone⟩ | ⟨hdrops, hkept⟩
    · have hy := passes_of_untracked henabledy (hkey ▸ hnone)
      exact iff_of_true hy (Or.inr hdrops)
    · rw [or_iff_left hdrops,
        passes_iff_of_tracked henabledy (hsound'.after between) (hkey ▸ hkept), hlimit]
      omega
  · have hbound : y.at_.toInt ≤ maxInt64 := y.at_.toInt_le
    omega

/-- A device whose clock is ahead, and a throttle that has room for both. -/
theorem passed_samples_are_apart_two_clocks :
    let x : Sample := ⟨"d1", "a", 5000⟩
    let between : List Sample := [⟨"d2", "b", 90000⟩, ⟨"d1", "a", 5500⟩]
    let t := ((Throttle.new 1000).withCapacity 2).after []
    t.passes x = true ∧ (t.step x).passed between = [⟨"d2", "b", 90000⟩] ∧
      ¬ (t.step x).DropsIn x.at_ between ∧
      ((t.step x).after between).passes ⟨"d1", "a", 5999⟩ = false ∧
      ((t.step x).after between).passes ⟨"d1", "a", 6000⟩ = true := by
  intro x between t
  have hpasses : t.passes x = true := by decide +kernel
  have hpassed : (t.step x).passed between = [⟨"d2", "b", 90000⟩] := by decide +kernel
  have hnext : ∀ z ∈ (t.step x).passed between, ¬ (z.device = x.device ∧ z.metric = x.metric) := by
    rw [hpassed]
    decide
  have hkeys : ∀ z ∈ (t.step x).passed between,
      z.key = x.key → z.device = x.device ∧ z.metric = x.metric := by
    rw [hpassed]
    decide +kernel
  have hearly : ((t.step x).after between).passes ⟨"d1", "a", 5999⟩ = false := by decide +kernel
  obtain ⟨hapart, -⟩ := passed_samples_are_apart 1000 2 (by decide) [] between x ⟨"d1", "a", 5999⟩
    ⟨rfl, rfl⟩ (by decide) hpasses hnext hkeys
  have hkept : ¬ (t.step x).DropsIn x.at_ between := fun hdrops => by
    cases hearly.symm.trans (hapart.mpr (Or.inr hdrops))
  obtain ⟨hlate, -⟩ := passed_samples_are_apart 1000 2 (by decide) [] between x ⟨"d1", "a", 6000⟩
    ⟨rfl, rfl⟩ (by decide) hpasses hnext hkeys
  exact ⟨hpasses, hpassed, hkept, hearly, hlate.mpr (Or.inl (by decide))⟩

/-- A device whose clock is 5 s ahead makes a throttle with room for one key forget the time of the
other device, and two samples of that device pass that are 1 ms apart, not 1000. -/
theorem passed_samples_may_be_close :
    ¬ ∀ (interval capacity : Nat) (before between : List Sample) (x y : Sample),
      0 < interval → y.device = x.device ∧ y.metric = x.metric → x.at_.toInt ≤ y.at_.toInt →
      let t := ((Throttle.new interval).withCapacity capacity).after before
      t.passes x = true →
      (∀ z ∈ (t.step x).passed between, ¬ (z.device = x.device ∧ z.metric = x.metric)) →
      ((t.step x).after between).passes y = true →
      interval ≤ y.at_.toInt - x.at_.toInt := by
  intro h
  have happart := h 1000 1 [] [⟨"d2", "b", 10000⟩] ⟨"d1", "a", 5000⟩ ⟨"d1", "a", 5001⟩
    (by decide) ⟨rfl, rfl⟩ (by decide) (by decide +kernel) (by decide +kernel) (by decide +kernel)
  exact absurd happart (by decide)

end DeviceHub.Throttle
