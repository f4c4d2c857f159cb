import Mathlib.Tactic.IntervalCases
import DeviceHub.Hex

/-!
# Hexadecimal digits are read back

* `value?_digit`    a digit of either case stands for its number.
-/

namespace DeviceHub.Hex

theorem value?_digit {ten : Char} (hten : ten = 'a' ∨ ten = 'A') {n : Nat} (hn : n < 16) :
    value? (digit ten n) = some n := by
  rcases hten with rfl | rfl <;> interval_cases n <;> rfl

theorem value?_lower {n : Nat} (hn : n < 16) : value? (lower n) = some n :=
  value?_digit (.inl rfl) hn

theorem value?_upper {n : Nat} (hn : n < 16) : value? (upper n) = some n :=
  value?_digit (.inr rfl) hn

end DeviceHub.Hex
