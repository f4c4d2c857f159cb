import DeviceHub.Decimal.Digits

/-!
# The double nearest to a decimal

* `nearest`  the double nearest to `digits * 10 ^ exponent`, infinite when it is too large.
-/

namespace DeviceHub.Decimal

/-- the double nearest to `n * 10 ^ e` -/
def nearest (n : Nat) (e : Int) : Float :=
  -- the place of the first digit tells what is above all doubles and what is nearest to zero
  let place : Int := (digits n).length + e
  if n = 0 ∨ place < -400 then 0.0
  else if 400 < place then 1.0 / 0.0
  else if 0 ≤ e then Float.ofScientific n false e.toNat
  else Float.ofScientific n true (-e).toNat

end DeviceHub.Decimal
