import DeviceHub.Json.Number
import DeviceHub.Proofs.Decimal.Digits

/-!
# Numerals

* `Numeral.Spelled`     a numeral is spelled as JSON allows it;
* `Numeral.spelled_ofInt`   so is that of an integer;
* `Numeral.value?_ofInt`    which stands for this integer, when it fits 64 bits.
-/

namespace DeviceHub.Json

/-- A numeral has digits before the point, the first of which is a zero only if it stands alone, and
digits wherever else it is to have some. -/
structure Numeral.Spelled (n : Numeral) : Prop where
  whole_ne_nil : n.whole ≠ []
  whole : ∀ c ∈ n.whole, Decimal.isDigit c = true
  leading : ¬ (n.whole.head? = some '0' ∧ 1 < n.whole.length)
  fraction : ∀ c ∈ n.fraction, Decimal.isDigit c = true
  exponent_ne_nil : ∀ e ∈ n.exponent, e.2 ≠ []
  exponent : ∀ e ∈ n.exponent, ∀ c ∈ e.2, Decimal.isDigit c = true

theorem gather_append {n m : Nat} {cs : List Char} (h : gather n cs = (m, [])) (ds : List Char) :
    gather n (cs ++ ds) = gather m ds := by
  induction cs generalizing n with
  | nil => rw [List.nil_append, (Prod.mk.inj h).1]
  | cons c cs ih =>
    rw [List.cons_append, gather]
    rw [gather] at h
    split at h
    · cases h
    · rename_i hfits
      rw [if_neg hfits]
      exact ih h

theorem gather_digits {n : Nat} (h : n ≤ maxSignificand) :
    gather 0 (Decimal.digits n) = (n, []) := by
  have hone (m : Nat) (k : Nat) (hk : k < 10) (hfits : m * 10 + k ≤ maxSignificand) :
      gather m [Decimal.digitChar k] = (m * 10 + k, []) := by
    rw [gather, Decimal.digitValue_digitChar k hk]
    exact if_neg (Nat.not_lt.mpr hfits)
  induction n using Nat.strong_induction_on with
  | _ n ih =>
    rcases Nat.lt_or_ge n 10 with hlt | hle
    · rw [Decimal.digits_of_lt hlt, hone 0 n hlt (by omega), Nat.zero_mul, Nat.zero_add]
    · have hsplit : n / 10 * 10 + n % 10 = n := by omega
      rw [Decimal.digits_of_le hle, gather_append (ih (n / 10) (by omega) (by omega)),
        hone _ _ (by omega) (by omega), hsplit]

namespace Numeral

theorem spelled_ofInt (i : Int) : (ofInt i).Spelled where
  whole_ne_nil := Decimal.digits_ne_nil _
  whole _ hc := Decimal.isDigit_of_mem_digits hc
  leading := by
    rintro ⟨hhead, hlength⟩
    have hzero : i.natAbs = 0 := Decimal.eq_zero_of_head?_digits hhead
    have hone : (Decimal.digits i.natAbs).length = 1 := by
      rw [hzero, Decimal.digits_of_lt (by omega)]
      rfl
    exact absurd (hone ▸ hlength) (lt_irrefl 1)
  fraction := nofun
  exponent_ne_nil := nofun
  exponent := nofun

/-- The numeral of an integer that fits 64 bits, with or without a sign, stands for it. -/
theorem value?_ofInt {i : Int} (hlow : -0x8000000000000000 ≤ i) (hhigh : i ≤ maxSignificand) :
    (ofInt i).value? = some (.int i) := by
  have hgather : gather 0 (ofInt i).whole = (i.natAbs, []) := by
    refine gather_digits ?_
    unfold maxSignificand at *
    omega
  unfold value?
  rw [hgather]
  simp only
  rw [if_pos ⟨rfl, rfl, rfl⟩]
  by_cases hneg : i < 0
  · have hsign : (ofInt i).negative = true := decide_eq_true hneg
    have hsmall : ¬ (i.natAbs = 0 ∨ 0x8000000000000000 < i.natAbs) := by omega
    have hvalue : -(i.natAbs : Int) = i := by omega
    rw [hsign, if_neg hsmall, hvalue]
    rfl
  · have hsign : (ofInt i).negative = false := decide_eq_false hneg
    have hvalue : (i.natAbs : Int) = i := by omega
    rw [hsign, hvalue]
    rfl

theorem value?_toInt (i : Int64) : (ofInt i.toInt).value? = some (.int i.toInt) := by
  have hhigh : i.toInt ≤ 0x7fffffffffffffff := Int64.toInt_le i
  refine value?_ofInt (Int64.le_toInt i) ?_
  unfold maxSignificand
  omega

end Numeral

end DeviceHub.Json
