import DeviceHub.Proofs.Throttle.Run

/-!
# A throttle beside one that never forgets

A ledger knows the last accepted time of every key there ever was, and computes with numbers of any
size.  A throttle prunes its entries, keeps its interval within 64 bits, and so does it with the
differences of times.

* `Ledger.passes`, `Ledger.decisions`   what a ledger says to samples;
* `Ledger.Leads`     what a throttle tracks is in the ledger, and what it lost is of one kind;
* `Leads.step`       they agree on a sample for which lost entries are too old, and on what they lost;
* `Leads.decisions_of_room`, `Leads.decisions_of_ordered`   so they agree when nothing is pruned, and
                     when time never goes back;
* `pruning_is_invisible`   in both cases the throttle decides as the ledger does.
-/

namespace DeviceHub

/-- the last accepted time of every key there ever was -/
abbrev Ledger := String → Option Int

namespace Ledger

/-- A sample passes when its key is new, or it is older than the last one, or an interval newer. -/
def passes (interval : Nat) (m : Ledger) (x : Sample) : Bool :=
  match m x.key with
  | none => true
  | some last => x.at_.toInt < last || last + interval ≤ x.at_.toInt

def step (interval : Nat) (m : Ledger) (x : Sample) : Ledger :=
  if m.passes interval x then Function.update m x.key (some x.at_.toInt) else m

def decisions (interval : Nat) : Ledger → List Sample → List Bool
  | _, [] => []
  | m, x :: xs => m.passes interval x :: decisions interval (m.step interval x) xs

def empty : Ledger := fun _ => none

variable {interval : Nat} {m : Ledger} {t : Throttle} {x : Sample}

theorem passes_of_none (h : m x.key = none) : m.passes interval x = true := by
  unfold passes
  rw [h]

theorem passes_of_some {last : Int} (h : m x.key = some last) :
    m.passes interval x = true ↔ x.at_.toInt < last ∨ last + interval ≤ x.at_.toInt := by
  unfold passes
  rw [h]
  simp

/-- What a throttle tracks is in the ledger, and what it does not track any more was `lost`. -/
structure Leads (interval : Nat) (lost : Int → Prop) (m : Ledger) (t : Throttle) : Prop where
  interval : t.interval = min interval maxInt64
  sorted : Sorted.IsSorted t.last
  positive : ∀ k l, m k = some l → 0 < l
  tracked : ∀ k l, Sorted.find? k t.last = some l → m k = some l.toInt
  missing : ∀ k l, m k = some l → Sorted.find? k t.last = none → lost l

/-- Two times that are positive are never as far apart as the longest interval. -/
theorem reaches_of_clamped {last : Int} (hlast : 0 < last) {at_ : Int64}
    (h : last + (min interval maxInt64 : Nat) ≤ at_.toInt) : last + interval ≤ at_.toInt := by
  have hlt := at_.toInt_lt
  unfold maxInt64 at h
  omega

namespace Leads

variable {lost lost' : Int → Prop}

theorem empty (interval capacity : Nat) (lost : Int → Prop) :
    Ledger.empty.Leads interval lost ((Throttle.new interval).withCapacity capacity) where
  interval := rfl
  sorted := Sorted.isSorted_nil
  positive := nofun
  tracked := nofun
  missing := nofun

theorem suppresses_iff (h : m.Leads interval lost t) {k : String} {at_ l : Int64}
    (hl : Sorted.find? k t.last = some l) : t.suppresses at_ l = true ↔
      l.toInt ≤ at_.toInt ∧ at_.toInt < l.toInt + interval := by
  have hpos := h.positive k l.toInt (h.tracked k l hl)
  have hclamped : t.interval ≤ maxInt64 := h.interval ▸ Nat.min_le_right _ _
  rw [Throttle.suppresses_iff hclamped, h.interval]
  constructor
  · rintro ⟨hle, hlt⟩
    refine ⟨hle, ?_⟩
    omega
  · rintro ⟨hle, hlt⟩
    refine ⟨hle, ?_⟩
    by_contra hfar
    have hreached := reaches_of_clamped hpos (Int.not_lt.mp hfar)
    omega

theorem record (h : m.Leads interval lost t) (hx : 0 < x.at_.toInt)
    (hlost : ∀ l, lost l → lost' l) {kept : List (String × Int64)} (hsorted : Sorted.IsSorted kept)
    (hsub : ∀ k l, Sorted.find? k kept = some l → Sorted.find? k t.last = some l)
    (hgone : ∀ k l, Sorted.find? k t.last = some l → Sorted.find? k kept = none →
      lost' l.toInt) :
    Leads interval lost' (Function.update m x.key (some x.at_.toInt))
      { t with last := Sorted.insert x.key x.at_ kept } where
  interval := h.interval
  sorted := Sorted.isSorted_insert _ _ hsorted
  positive k l hl := by
    by_cases hk : k = x.key
    · subst hk
      rw [Function.update_self] at hl
      exact Option.some.inj hl ▸ hx
    · rw [Function.update_of_ne hk] at hl
      exact h.positive k l hl
  tracked k l hl := by
    rw [Sorted.find?_insert] at hl
    by_cases hk : x.key = k
    · rw [if_pos hk] at hl
      rw [← Option.some.inj hl, ← hk, Function.update_self]
    · rw [if_neg hk] at hl
      rw [Function.update_of_ne (Ne.symm hk)]
      exact h.tracked k l (hsub k l hl)
  missing k l hl hnone := by
    rw [Sorted.find?_insert] at hnone
    by_cases hk : x.key = k
    · rw [if_pos hk] at hnone
      cases hnone
    · rw [if_neg hk] at hnone
      rw [Function.update_of_ne (Ne.symm hk)] at hl
      cases hbefore : Sorted.find? k t.last with
      | none => exact hlost l (h.missing k l hl hbefore)
      | some l' =>
        have heq : l'.toInt = l := Option.some.inj ((h.tracked k l' hbefore).symm.trans hl)
        exact heq ▸ hgone k l' hbefore hnone

/-- Throttle and ledger agree on a sample, when all that was lost is an interval older.  They keep on
agreeing with what they lost now, if a prune loses nothing else. -/
theorem step (h : m.Leads interval lost t) (henabled : t.isEnabled = true) (hx : 0 < x.at_.toInt)
    (hold : ∀ l, lost l → l + interval ≤ x.at_.toInt) (hlost : ∀ l, lost l → lost' l)
    (hprune : Sorted.find? x.key t.last = none → t.capacity ≤ t.last.length →
      ∀ k l, Sorted.find? k t.last = some l → t.suppresses x.at_ l = false → lost' l.toInt) :
    t.passes x = m.passes interval x ∧ (m.step interval x).Leads interval lost' (t.step x) := by
  -- a key that is not tracked is new to the ledger too, or its time was lost
  have hnewPasses (hnew : Sorted.find? x.key t.last = none) : m.passes interval x = true := by
    cases hm : m x.key with
    | none => exact passes_of_none hm
    | some l => exact (passes_of_some hm).mpr (Or.inr (hold l (h.missing _ l hm hnew)))
  have hrecord {kept : List (String × Int64)} (hpasses : m.passes interval x = true)
      (hsorted : Sorted.IsSorted kept)
      (hsub : ∀ k l, Sorted.find? k kept = some l → Sorted.find? k t.last = some l)
      (hgone : ∀ k l, Sorted.find? k t.last = some l → Sorted.find? k kept = none →
        lost' l.toInt) :
      (m.step interval x).Leads interval lost'
        { t with last := Sorted.insert x.key x.at_ kept } := by
    unfold Ledger.step
    rw [if_pos hpasses]
    exact h.record hx hlost hsorted hsub hgone
  have hall (hpasses : m.passes interval x = true) := hrecord hpasses h.sorted
    (fun _ _ hl => hl) fun k l hl hnone => absurd (hl.symm.trans hnone) (Option.some_ne_none l)
  have hdecided := Throttle.decided_step henabled x
  generalize t.passes x = b, t.step x = t' at hdecided ⊢
  cases hdecided with
  | suppressed last hlast hsuppressed =>
    have hfalse : m.passes interval x = false := by
      rw [h.suppresses_iff hlast] at hsuppressed
      rw [← Bool.not_eq_true, passes_of_some (h.tracked _ last hlast)]
      omega
    refine ⟨hfalse.symm, ?_⟩
    unfold Ledger.step
    rw [hfalse, if_neg Bool.false_ne_true]
    exact { h with missing := fun k l hl hnone => hlost l (h.missing k l hl hnone) }
  | passed last hlast hpassed =>
    have hpasses : m.passes interval x = true := by
      rw [← Bool.not_eq_true, h.suppresses_iff hlast] at hpassed
      rw [passes_of_some (h.tracked _ last hlast)]
      omega
    exact ⟨hpasses.symm, hall hpasses⟩
  | tracked hnew hroom => exact ⟨(hnewPasses hnew).symm, hall (hnewPasses hnew)⟩
  | pruned hnew hfull =>
    refine ⟨(hnewPasses hnew).symm, hrecord (hnewPasses hnew)
      (Sorted.isSorted_filter _ h.sorted) (fun k l hl => ?_) fun k l hl hnone => ?_⟩
    · exact ((Throttle.find?_prune_eq_some h.sorted).mp hl).1
    · exact hprune hnew hfull k l hl ((Throttle.find?_prune_eq_none h.sorted hl).mp hnone)

/-! ## Two ways of losing nothing that counts -/

theorem decisions_of_room (h : m.Leads interval (fun _ => False) t) (henabled : t.isEnabled = true)
    {keys : Finset String} (hroom : keys.card ≤ t.capacity) (ht : ∀ e ∈ t.last, e.1 ∈ keys)
    {xs : List Sample} (hxs : ∀ x ∈ xs, x.key ∈ keys ∧ 0 < x.at_.toInt) :
    t.decisions xs = m.decisions interval xs := by
  induction xs generalizing t m with
  | nil => rfl
  | cons x xs ih =>
    obtain ⟨hkey, hx⟩ := hxs x List.mem_cons_self
    -- the keys that are tracked and a new one are different keys
    have hnotFull (hnew : Sorted.find? x.key t.last = none) : t.last.length < t.capacity := by
      have hnotMem : x.key ∉ t.last.map (·.1) := by
        rw [← Sorted.isSome_find?, hnew]
        exact Bool.false_ne_true
      have hnodup : (x.key :: t.last.map (·.1)).Nodup :=
        List.nodup_cons.mpr ⟨hnotMem, Sorted.nodup_keys h.sorted⟩
      have hsubset : (x.key :: t.last.map (·.1)).toFinset ⊆ keys := by
        intro k hk
        rcases List.mem_cons.mp (List.mem_toFinset.mp hk) with rfl | hk
        · exact hkey
        · obtain ⟨e, he, rfl⟩ := List.mem_map.mp hk
          exact ht e he
      have hcard := Finset.card_le_card hsubset
      rw [List.toFinset_card_of_nodup hnodup, List.length_cons, List.length_map] at hcard
      omega
    obtain ⟨hsame, hstep⟩ := h.step henabled hx nofun (fun _ hl => hl)
      fun hnew hfull => absurd (hnotFull hnew) (Nat.not_lt.mpr hfull)
    have hrest := ih hstep ((Throttle.isEnabled_step t x).trans henabled)
      ((Throttle.capacity_step t x).symm ▸ hroom)
      (fun e he => by
        rcases Throttle.mem_step henabled he with rfl | he
        · exact hkey
        · exact ht e he)
      fun y hy => hxs y (List.mem_cons_of_mem _ hy)
    rw [Throttle.decisions, Ledger.decisions, hsame, hrest]

/-- When time never goes back, what a prune loses is an interval older than all that is to come. -/
theorem decisions_of_ordered {now : Int} (h : m.Leads interval (fun l => l + interval ≤ now) t)
    (henabled : t.isEnabled = true) (hpast : ∀ k l, m k = some l → l ≤ now) {xs : List Sample}
    (hxs : ∀ x ∈ xs, now ≤ x.at_.toInt ∧ 0 < x.at_.toInt)
    (hordered : xs.Pairwise fun x y => x.at_ ≤ y.at_) :
    t.decisions xs = m.decisions interval xs := by
  induction xs generalizing t m now with
  | nil => rfl
  | cons x xs ih =>
    obtain ⟨hnow, hx⟩ := hxs x List.mem_cons_self
    obtain ⟨hhead, htail⟩ := List.pairwise_cons.mp hordered
    have hlater (l : Int) (hl : l + interval ≤ now) : l + interval ≤ x.at_.toInt := by omega
    have hpruned (k : String) (l : Int64) (hl : Sorted.find? k t.last = some l)
        (hsuppressed : t.suppresses x.at_ l = false) : l.toInt + interval ≤ x.at_.toInt := by
      have hle := hpast k l.toInt (h.tracked k l hl)
      rw [← Bool.not_eq_true, h.suppresses_iff hl] at hsuppressed
      omega
    obtain ⟨hsame, hstep⟩ := h.step henabled hx hlater hlater fun _ _ => hpruned
    have hpast' : ∀ k l, m.step interval x k = some l → l ≤ x.at_.toInt := by
      intro k l hl
      unfold Ledger.step at hl
      split at hl
      · by_cases hk : k = x.key
        · rw [hk, Function.update_self] at hl
          exact (Option.some.inj hl).symm.le
        · rw [Function.update_of_ne hk] at hl
          exact (hpast k l hl).trans hnow
      · exact (hpast k l hl).trans hnow
    have hrest := ih hstep ((Throttle.isEnabled_step t x).trans henabled) hpast'
      (fun y hy => ⟨Int64.le_iff_toInt_le.mp (hhead y hy), (hxs y (List.mem_cons_of_mem _ hy)).2⟩)
      htail
    rw [Throttle.decisions, Ledger.decisions, hsame, hrest]

end Leads

/-! ## No interval -/

theorem decisions_of_zero (m : Ledger) (xs : List Sample) :
    m.decisions 0 xs = xs.map fun _ => true := by
  induction xs generalizing m with
  | nil => rfl
  | cons x xs ih =>
    have hpasses : m.passes 0 x = true := by
      cases hm : m x.key with
      | none => exact passes_of_none hm
      | some l =>
        rw [passes_of_some hm]
        omega
    rw [decisions, hpasses, ih, List.map_cons]

end Ledger

namespace Throttle

theorem decisions_of_disabled {t : Throttle} (hdisabled : t.isEnabled = false) (xs : List Sample) :
    t.decisions xs = xs.map fun _ => true := by
  induction xs with
  | nil => rfl
  | cons x xs ih =>
    rw [decisions, passes_of_disabled hdisabled, step_of_disabled hdisabled, ih, List.map_cons]

/-- A throttle decides as a ledger does that forgets nothing and counts without bounds, when no more
keys occur than it has room for, or when time never goes back.  Times are positive. -/
theorem pruning_is_invisible (interval capacity : Nat) (xs : List Sample)
    (hpositive : ∀ x ∈ xs, 0 < x.at_)
    (h : (xs.map Sample.key).toFinset.card ≤ max capacity 1 ∨
      xs.Pairwise fun x y => x.at_ ≤ y.at_) :
    ((Throttle.new interval).withCapacity capacity).decisions xs =
      Ledger.empty.decisions interval xs := by
  cases interval with
  | zero => rw [Ledger.decisions_of_zero, decisions_of_disabled (by rfl)]
  | succ n =>
    have henabled : ((Throttle.new (n + 1)).withCapacity capacity).isEnabled = true := by
      refine decide_eq_true (?_ : 0 < min (n + 1) maxInt64)
      unfold maxInt64
      omega
    have hpos {x : Sample} (hx : x ∈ xs) : 0 < x.at_.toInt :=
      Int64.lt_iff_toInt_lt.mp (hpositive x hx)
    rcases h with hroom | hordered
    · exact (Ledger.Leads.empty _ _ _).decisions_of_room henabled hroom nofun fun x hx =>
        ⟨List.mem_toFinset.mpr (List.mem_map_of_mem hx), hpos hx⟩
    · have hleads : Ledger.empty.Leads (n + 1) (fun l => l + (n + 1 : Nat) ≤ 0) _ :=
        Ledger.Leads.empty (n + 1) capacity _
      exact hleads.decisions_of_ordered henabled nofun
        (fun x hx => ⟨(hpos hx).le, hpos hx⟩) hordered

/-- Three keys, time that never goes back, and room for one; and one key whose clock goes back, with
an interval that has to be clamped. -/
theorem pruning_is_invisible_crowd :
    let crowd : List Sample := [⟨"d", "a", 1000⟩, ⟨"d", "b", 1500⟩, ⟨"e", "a", 2200⟩,
      ⟨"d", "b", 2300⟩, ⟨"d", "a", 2400⟩]
    let back : List Sample := [⟨"d", "a", 5000⟩, ⟨"d", "a", 4000⟩, ⟨"d", "a", 4500⟩]
    ((∀ x ∈ crowd, 0 < x.at_) ∧ (crowd.Pairwise fun x y => x.at_ ≤ y.at_) ∧
      ((Throttle.new 1000).withCapacity 1).decisions crowd = [true, true, true, false, true] ∧
      ((Throttle.new 1000).withCapacity 1).decisions crowd =
        Ledger.empty.decisions 1000 crowd) ∧
    (∀ x ∈ back, 0 < x.at_) ∧ (back.map Sample.key).toFinset.card ≤ max 0 1 ∧
      ((Throttle.new (2 ^ 64 - 1)).withCapacity 0).decisions back = [true, true, false] ∧
      ((Throttle.new (2 ^ 64 - 1)).withCapacity 0).decisions back =
        Ledger.empty.decisions (2 ^ 64 - 1) back := by
  intro crowd back
  have hcrowd : ∀ x ∈ crowd, 0 < x.at_ := by decide
  have hordered : crowd.Pairwise fun x y => x.at_ ≤ y.at_ := by decide
  have hback : ∀ x ∈ back, 0 < x.at_ := by decide
  have hkeys : (back.map Sample.key).toFinset.card ≤ max 0 1 := by decide +kernel
  exact ⟨⟨hcrowd, hordered, by decide +kernel,
      pruning_is_invisible 1000 1 crowd hcrowd (Or.inr hordered)⟩,
    hback, hkeys, by decide +kernel,
    pruning_is_invisible (2 ^ 64 - 1) 0 back hback (Or.inl hkeys)⟩

end Throttle

end DeviceHub
