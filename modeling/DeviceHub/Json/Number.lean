import DeviceHub.Json.Doc

/-!
# The value of a JSON number

* `Numeral.value?`  the integer or the double that a numeral stands for; `none` if it is too large.

A numeral without fraction and exponent that fits 64 bits is an integer.  Every other numeral is a
double: its digits are collected in a 64-bit significand, digits that would overflow it are dropped
and counted in the exponent, and the significand is scaled by one power of ten.  The result is
within a few units of the last place of the exact value, and not always the nearest double.
-/

namespace DeviceHub.Json

/-- the value of a number -/
inductive Num
  | int (i : Int)
  | float (x : Float)

def maxSignificand : Nat := 0xffffffffffffffff

/-- The bounds of exponents. -/
def maxExponent : Int := 0x7fffffff

/-- an exponent kept within 32 bits -/
def clampExponent (e : Int) : Int := max (-0x80000000) (min maxExponent e)

/-- the significand of leading digits, and the digits from the first one that would overflow it -/
def gather (significand : Nat) : List Char → Nat × List Char
  | [] => (significand, [])
  | c :: cs =>
    let n := significand * 10 + Decimal.digitValue c
    if maxSignificand < n then (significand, c :: cs) else gather n cs

/-- the double nearest to a power of ten -/
def powerOfTen (n : Nat) : Float := Float.ofScientific 1 false n

/-- a double scaled by a power of ten; an infinite result is none -/
def scale? (x : Float) (e : Int) : Option Float :=
  if 308 < e then if x == 0.0 then some x else none
  else if 0 ≤ e then
    let y := x * powerOfTen e.toNat
    if y.isInf then none else some y
  else if -308 ≤ e then some (x / powerOfTen (-e).toNat)
  else if x == 0.0 then some x
  -- the power for a smaller exponent would be infinite, so it is taken in steps
  else scale? (x / powerOfTen 308) (e + 308)
termination_by (-e).toNat
decreasing_by omega

namespace Numeral

/-- the sign of a numeral put on a double -/
def signed (n : Numeral) (x : Float) : Float := if n.negative then -x else x

/-- the double of a significand, an exponent that its digits imply, and the written exponent -/
def assemble? (n : Numeral) (significand : Nat) (implied : Int) : Option Float :=
  match n.exponent with
  | none => (scale? (Float.ofNat significand) implied).map n.signed
  | some (sign, ds) =>
    let written : Int := Decimal.value ds
    if maxExponent < written then
      -- beyond 32 bits an exponent makes zero, or a number that is too large
      if significand ≠ 0 ∧ sign ≠ .minus then none else some (n.signed 0.0)
    else
      let e := clampExponent (if sign = .minus then implied - written else implied + written)
      (scale? (Float.ofNat significand) e).map n.signed

/-- the value of a numeral, if it is not too large -/
def value? (n : Numeral) : Option Num :=
  let (significand, dropped) := gather 0 n.whole
  if dropped.isEmpty ∧ n.fraction.isEmpty ∧ n.exponent.isNone then
    if !n.negative then some (.int significand)
    -- a negative zero and what is below all 64-bit integers are doubles
    else if significand = 0 ∨ 0x8000000000000000 < significand then
      some (.float (-(Float.ofNat significand)))
    else some (.int (-(significand : Int)))
  else
    -- digits that were dropped in front of the point raise the exponent, kept ones behind it lower it
    let (significand, rest) := gather significand n.fraction
    let kept : Int := n.fraction.length - rest.length
    (n.assemble? significand (dropped.length - kept)).map .float

end Numeral

end DeviceHub.Json
