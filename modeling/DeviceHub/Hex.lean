import DeviceHub.Decimal.Digits

/-!
# Hexadecimal digits

* `value?`          the number of a digit, of either case;
* `lower`, `upper`  the digit for a number below sixteen, in one case.
-/

namespace DeviceHub.Hex

def value? (c : Char) : Option Nat :=
  if Decimal.isDigit c then some (Decimal.digitValue c)
  else if 'a' ≤ c ∧ c ≤ 'f' then some (c.toNat - 'a'.toNat + 10)
  else if 'A' ≤ c ∧ c ≤ 'F' then some (c.toNat - 'A'.toNat + 10)
  else none

/-- the digit for a number below sixteen, when `ten` is the digit for ten -/
def digit (ten : Char) (n : Nat) : Char :=
  if n < 10 then Decimal.digitChar n else Char.ofNat (ten.toNat + (n - 10))

def lower (n : Nat) : Char := digit 'a' n

def upper (n : Nat) : Char := digit 'A' n

end DeviceHub.Hex
