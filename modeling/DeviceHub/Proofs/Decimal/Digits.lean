import Mathlib
import DeviceHub.Decimal.Layout

/-!
# Written numbers read back

* `value_digits`, `signed?_integerChars`   the digits of a number stand for it;
* `Spells`, `signed?_eq_some_iff`          the texts that stand for an integer;
* `all_isDigit_digits`, `digits_ne_nil`    what digits consist of;
* `isNumeric`, `reportText_of_isFinite`    what the text of a finite double consists of.
-/

namespace DeviceHub.Decimal

/-! ## Digits -/

theorem isDigit_digitChar : ∀ n < 10, isDigit (digitChar n) = true := by decide

theorem digitValue_digitChar : ∀ n < 10, digitValue (digitChar n) = n := by decide

theorem digits_of_lt {n : Nat} (h : n < 10) : digits n = [digitChar n] := by
  rw [digits, if_pos h]

theorem digits_of_le {n : Nat} (h : 10 ≤ n) :
    digits n = digits (n / 10) ++ [digitChar (n % 10)] := by
  rw [digits, if_neg (by omega)]

theorem digits_ne_nil (n : Nat) : digits n ≠ [] := by
  rcases Nat.lt_or_ge n 10 with h | h
  · rw [digits_of_lt h]
    exact List.cons_ne_nil _ _
  · rw [digits_of_le h]
    exact List.append_ne_nil_of_right_ne_nil _ (List.cons_ne_nil _ _)

theorem all_isDigit_digits (n : Nat) : (digits n).all isDigit = true := by
  induction n using Nat.strong_induction_on with
  | _ n ih =>
    rcases Nat.lt_or_ge n 10 with h | h
    · rw [digits_of_lt h, List.all_cons, isDigit_digitChar n h]
      rfl
    · have hlast := isDigit_digitChar (n % 10) (Nat.mod_lt n (by omega))
      rw [digits_of_le h, List.all_append, ih (n / 10) (by omega), List.all_cons, hlast]
      rfl

theorem value_append_one (cs : List Char) (c : Char) :
    value (cs ++ [c]) = value cs * 10 + digitValue c := by
  unfold value
  rw [List.foldl_append]
  rfl

theorem value_digits (n : Nat) : value (digits n) = n := by
  induction n using Nat.strong_induction_on with
  | _ n ih =>
    rcases Nat.lt_or_ge n 10 with h | h
    · rw [digits_of_lt h]
      show 0 * 10 + digitValue (digitChar n) = n
      rw [digitValue_digitChar n h]
      omega
    · rw [digits_of_le h, value_append_one, ih (n / 10) (by omega),
        digitValue_digitChar (n % 10) (Nat.mod_lt n (by omega))]
      omega

theorem digits?_digits (n : Nat) : digits? (digits n) = some n := by
  unfold digits?
  have hne : (digits n).isEmpty = false := by
    rw [List.isEmpty_eq_false_iff]
    exact digits_ne_nil n
  rw [hne, all_isDigit_digits, value_digits]
  rfl

theorem eq_zero_of_head?_digits {n : Nat} (h : (digits n).head? = some '0') : n = 0 := by
  induction n using Nat.strong_induction_on with
  | _ n ih =>
    rcases Nat.lt_or_ge n 10 with hlt | hle
    · rw [digits_of_lt hlt, List.head?_cons, Option.some.injEq] at h
      revert h
      interval_cases n <;> decide
    · rw [digits_of_le hle, List.head?_append_of_ne_nil _ (digits_ne_nil _)] at h
      have := ih (n / 10) (by omega) h
      omega

/-! ## Integers -/

theorem isDigit_of_mem_digits {n : Nat} {c : Char} (h : c ∈ digits n) : isDigit c = true :=
  List.all_eq_true.mp (all_isDigit_digits n) c h

theorem integerChars_of_neg {i : Int} (h : i < 0) : integerChars i = '-' :: digits i.natAbs := by
  rw [integerChars, if_pos h]

theorem integerChars_of_nonneg {i : Int} (h : 0 ≤ i) : integerChars i = digits i.natAbs := by
  rw [integerChars, if_neg (by omega)]

theorem unsigned?_digits (n : Nat) : unsigned? (digits n) = some n := by
  unfold unsigned?
  split
  · rename_i cs hcs
    have hplus : isDigit '+' = true := isDigit_of_mem_digits (hcs ▸ List.mem_cons_self)
    exact absurd hplus (by decide)
  · exact digits?_digits n

theorem signed?_integerChars (i : Int) : signed? (integerChars i) = some i := by
  rcases lt_or_ge i 0 with h | h
  · rw [integerChars_of_neg h, signed?, digits?_digits]
    show some (-(i.natAbs : Int)) = some i
    congr 1
    omega
  · rw [integerChars_of_nonneg h]
    unfold signed?
    split
    · rename_i cs hcs
      have hminus : isDigit '-' = true := isDigit_of_mem_digits (hcs ▸ List.mem_cons_self)
      exact absurd hminus (by decide)
    · rw [unsigned?_digits]
      show some (i.natAbs : Int) = some i
      congr 1
      omega

/-- At least one digit and nothing but digits, with an optional sign in front. -/
def Spells (cs : List Char) (i : Int) : Prop :=
  ∃ ds, ds ≠ [] ∧ (∀ d ∈ ds, isDigit d = true) ∧
    ((cs = ds ∨ cs = '+' :: ds) ∧ i = value ds ∨ cs = '-' :: ds ∧ i = -(value ds : Int))

theorem digits?_eq_some_iff {cs : List Char} {n : Nat} :
    digits? cs = some n ↔ cs ≠ [] ∧ (∀ c ∈ cs, isDigit c = true) ∧ value cs = n := by
  unfold digits?
  cases cs with
  | nil => simp
  | cons c cs => simp [and_assoc]

theorem unsigned?_eq_some_iff {cs : List Char} {n : Nat} :
    unsigned? cs = some n ↔ ∃ ds, (cs = ds ∨ cs = '+' :: ds) ∧ digits? ds = some n := by
  constructor
  · intro h
    unfold unsigned? at h
    split at h
    · exact ⟨_, Or.inr rfl, h⟩
    · exact ⟨_, Or.inl rfl, h⟩
  · rintro ⟨ds, rfl | rfl, h⟩
    · unfold unsigned?
      split
      · have hplus := (digits?_eq_some_iff.mp h).2.1 '+' List.mem_cons_self
        exact absurd hplus (by decide)
      · exact h
    · exact h

theorem signed?_eq_some_iff {cs : List Char} {i : Int} : signed? cs = some i ↔ Spells cs i := by
  constructor
  · intro h
    unfold signed? at h
    split at h
    · obtain ⟨_, hi, rfl⟩ := Option.map_eq_some_iff.mp h
      obtain ⟨n, hn, hi⟩ := Option.bind_eq_some_iff.mp hi
      cases hi
      obtain ⟨hne, hds, rfl⟩ := digits?_eq_some_iff.mp hn
      exact ⟨_, hne, hds, Or.inr ⟨rfl, rfl⟩⟩
    · obtain ⟨n, hn, rfl⟩ := Option.map_eq_some_iff.mp h
      obtain ⟨ds, hcs, hn⟩ := unsigned?_eq_some_iff.mp hn
      obtain ⟨hne, hds, rfl⟩ := digits?_eq_some_iff.mp hn
      exact ⟨ds, hne, hds, Or.inl ⟨hcs, rfl⟩⟩
  · rintro ⟨ds, hne, hds, ⟨hcs, rfl⟩ | ⟨rfl, rfl⟩⟩
    · have hn := unsigned?_eq_some_iff.mpr ⟨ds, hcs, digits?_eq_some_iff.mpr ⟨hne, hds, rfl⟩⟩
      unfold signed?
      split
      · -- neither a digit nor a plus sign is a minus sign
        rcases hcs with rfl | hplus
        · exact absurd (hds '-' List.mem_cons_self) (by decide)
        · exact absurd (List.cons.inj hplus).1 (by decide)
      · rw [hn]
        rfl
    · rw [signed?, digits?_eq_some_iff.mpr ⟨hne, hds, rfl⟩]
      rfl

/-! ## Doubles -/

/-- the characters of finite doubles: digits, signs, the point and the mark of the exponent -/
def isNumeric (c : Char) : Bool := isDigit c || c ∈ ['-', '+', '.', 'e']

theorem isNumeric_of_isDigit {c : Char} (h : isDigit c = true) : isNumeric c = true := by
  rw [isNumeric, h, Bool.true_or]

theorem all_isNumeric_digits (n : Nat) : ∀ c ∈ digits n, isNumeric c = true := fun _ hc =>
  isNumeric_of_isDigit (isDigit_of_mem_digits hc)

theorem all_isNumeric_integerChars (i : Int) : ∀ c ∈ integerChars i, isNumeric c = true := by
  intro c hc
  unfold integerChars at hc
  split at hc
  · rcases List.mem_cons.mp hc with rfl | hc
    · rfl
    · exact all_isNumeric_digits _ c hc
  · exact all_isNumeric_digits _ c hc

theorem all_isNumeric_zeros (n : Nat) : ∀ c ∈ List.replicate n '0', isNumeric c = true := by
  intro c hc
  rw [List.eq_of_mem_replicate hc]
  rfl

/-- There are digits before the point, and what stands around it is numeric. -/
structure Parts.Sound (p : Parts) : Prop where
  whole_ne_nil : p.whole ≠ []
  whole : ∀ c ∈ p.whole, isNumeric c = true
  fraction : ∀ c ∈ p.fraction, isNumeric c = true

namespace Layout

theorem sound_inPlace {ds : List Char} (hne : ds ≠ []) (hds : ∀ c ∈ ds, isNumeric c = true)
    (negative : Bool) (e : Int) (exponent : Option Int) :
    Parts.Sound ⟨negative, (inPlace ds e).1, (inPlace ds e).2, exponent⟩ := by
  have hpos : 0 < ds.length := List.length_pos_iff.mpr hne
  have hzero : ∀ c ∈ ['0'], isNumeric c = true := all_isNumeric_zeros 1
  unfold inPlace
  split
  · refine ⟨List.cons_ne_nil _ _, hzero, fun c hc => ?_⟩
    rcases List.mem_append.mp hc with hc | hc
    · exact all_isNumeric_zeros _ c hc
    · exact hds c hc
  · refine ⟨?_, fun c hc => ?_, fun c hc => ?_⟩
    · intro hnil
      have htake := congrArg List.length (List.append_eq_nil_iff.mp hnil).1
      rw [List.length_take, List.length_nil] at htake
      omega
    · rcases List.mem_append.mp hc with hc | hc
      · exact hds c (List.mem_of_mem_take hc)
      · exact all_isNumeric_zeros _ c hc
    · simp only at hc
      split at hc
      · exact hzero c hc
      · exact hds c (List.mem_of_mem_drop hc)

theorem sound_parts (l : Layout) (negative : Bool) (d : Scaled) : (l.parts negative d).Sound := by
  have hne := digits_ne_nil d.digits
  have hds := all_isNumeric_digits d.digits
  unfold parts
  simp only
  split
  · exact sound_inPlace hne hds _ _ _
  · refine ⟨?_, fun c hc => hds c (List.mem_of_mem_take hc),
      fun c hc => hds c (List.mem_of_mem_drop hc)⟩
    intro hnil
    have hlength := congrArg List.length hnil
    have hpos : 0 < (digits d.digits).length := List.length_pos_iff.mpr hne
    rw [List.length_take, List.length_nil] at hlength
    omega

theorem finite?_of_isFinite (l : Layout) {x : Float} (hx : x.isFinite = true) :
    ∃ p, l.finite? x = some p ∧ p.Sound := by
  unfold finite?
  simp only [hx, if_true]
  split
  · exact ⟨_, rfl, List.cons_ne_nil _ _, all_isNumeric_zeros 1, all_isNumeric_zeros 1⟩
  · exact ⟨_, rfl, sound_parts l _ _⟩

theorem all_isNumeric_render (l : Layout) {p : Parts} (hp : p.Sound) :
    ∀ c ∈ l.render p, isNumeric c = true := by
  intro c hc
  unfold render at hc
  rcases List.mem_append.mp hc with hc | hc
  · rcases List.mem_append.mp hc with hc | hc
    · rcases List.mem_append.mp hc with hc | hc
      · split at hc
        · rw [List.mem_singleton.mp hc]
          rfl
        · cases hc
      · exact hp.whole c hc
    · split at hc
      · cases hc
      · rcases List.mem_cons.mp hc with rfl | hc
        · rfl
        · exact hp.fraction c hc
  · split at hc
    · cases hc
    · rcases List.mem_append.mp hc with hc | hc
      · rcases List.mem_cons.mp hc with rfl | hc
        · rfl
        · split at hc
          · rw [List.mem_singleton.mp hc]
            rfl
          · cases hc
      · exact all_isNumeric_integerChars _ c hc

theorem render_ne_nil (l : Layout) {p : Parts} (hp : p.Sound) : l.render p ≠ [] := by
  intro hnil
  unfold render at hnil
  rw [List.append_eq_nil_iff, List.append_eq_nil_iff, List.append_eq_nil_iff] at hnil
  exact hp.whole_ne_nil hnil.1.1.2

end Layout

theorem reportText_of_isFinite {x : Float} (hx : x.isFinite = true) :
    (reportText x).toList ≠ [] ∧ ∀ c ∈ (reportText x).toList, isNumeric c = true := by
  obtain ⟨p, hp, hsound⟩ := Layout.finite?_of_isFinite Layout.report hx
  unfold reportText
  rw [hp]
  simp only [String.toList_ofList]
  exact ⟨Layout.render_ne_nil _ hsound, Layout.all_isNumeric_render _ hsound⟩

end DeviceHub.Decimal
