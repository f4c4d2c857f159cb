/-!
# Decimal digits

* `digits`    the decimal digits of a natural number, without leading zeros;
* `value`     the number that digits stand for;
* `integer`   the text of an integer;
* `unsigned?`, `signed?`  the number a text of digits stands for, an optional sign in front.
-/

namespace DeviceHub.Decimal

def isDigit (c : Char) : Bool := '0' ≤ c && c ≤ '9'

/-- the digit for a number below ten -/
def digitChar (n : Nat) : Char := Char.ofNat (48 + n)

def digitValue (c : Char) : Nat := c.toNat - 48

/-- the digits of a number, the most significant first -/
def digits (n : Nat) : List Char :=
  if n < 10 then [digitChar n] else digits (n / 10) ++ [digitChar (n % 10)]
termination_by n
decreasing_by omega

/-- the number that digits stand for; no digits stand for zero -/
def value (cs : List Char) : Nat := cs.foldl (fun n c => n * 10 + digitValue c) 0

def natural (n : Nat) : String := String.ofList (digits n)

def integerChars (i : Int) : List Char :=
  if i < 0 then '-' :: digits i.natAbs else digits i.natAbs

def integer (i : Int) : String := String.ofList (integerChars i)

/-- the number of a text of at least one digit and nothing else -/
def digits? (cs : List Char) : Option Nat :=
  if cs.isEmpty || !cs.all isDigit then none else some (value cs)

/-- the number of digits with an optional plus sign in front -/
def unsigned? : List Char → Option Nat
  | '+' :: cs => digits? cs
  | cs => digits? cs

/-- the number of digits with an optional sign in front -/
def signed? : List Char → Option Int
  | '-' :: cs => (digits? cs).map fun n => -(n : Int)
  | cs => (unsigned? cs).map Int.ofNat

end DeviceHub.Decimal
