import DeviceHub.Decimal.Digits

/-!
# The fewest digits that read back

* `Magnitude`        a positive dyadic number `m * 2 ^ q`, and `Magnitude.ofBits?` for the bits of a double;
* `Magnitude.holds`  whether a decimal number lies in the interval of reals that round to it;
* `Magnitude.shortest`  the fewest digits, and of those the nearest, that lie in the interval;
* `Tie`              which of two decimals counts when both are equally near.

All comparisons are made between natural numbers: a decimal `c * 10 ^ k` is compared with a dyadic
number after both are multiplied by the missing powers of two and ten.
-/

namespace DeviceHub.Decimal

/-- a positive dyadic number `significand * 2 ^ exponent`; `edge` says that the next smaller
double is only half as far away as the next larger one -/
structure Magnitude where
  significand : Nat
  exponent : Int
  edge : Bool
deriving DecidableEq, Repr

/-- a decimal number `digits * 10 ^ scale` -/
structure Scaled where
  digits : Nat
  scale : Int
deriving DecidableEq, Repr

/-- which of two neighbouring decimals counts when both are equally near -/
inductive Tie
  /-- the larger one -/
  | up
  /-- the one whose last digit is even -/
  | even
deriving DecidableEq, Repr

namespace Magnitude

/-- the magnitude of a finite double other than zero, from its 64 bits -/
def ofBits? (bits : Nat) : Option Magnitude :=
  let fraction : Nat := bits % 0x10000000000000
  let biased : Nat := bits / 0x10000000000000 % 0x800
  if biased = 2047 then none
  else if biased = 0 then
    -- a subnormal double has no hidden bit
    if fraction = 0 then none else some ⟨fraction, -1074, false⟩
  else some ⟨fraction + 0x10000000000000, (biased : Int) - 1075, fraction = 0 && 1 < biased⟩

/-- `a * 2 ^ p` against `c * 10 ^ k`, both cleared of negative powers -/
def compareScaled (a : Nat) (p : Int) (c : Nat) (k : Int) : Ordering :=
  compare (a * Nat.pow 2 p.toNat * Nat.pow 10 (-k).toNat)
    (c * Nat.pow 10 k.toNat * Nat.pow 2 (-p).toNat)

/-- the lower end of the interval that rounds to the magnitude, in quarters of its last place -/
def lowQuarters (x : Magnitude) : Nat := 4 * x.significand - (if x.edge then 1 else 2)

/-- the upper end, in quarters of its last place -/
def highQuarters (x : Magnitude) : Nat := 4 * x.significand + 2

/-- whether a decimal rounds to the magnitude; the ends count when the significand is even -/
def holds (x : Magnitude) (d : Scaled) : Bool :=
  let q := x.exponent - 2
  let even := x.significand % 2 = 0
  let low := compareScaled x.lowQuarters q d.digits d.scale
  let high := compareScaled x.highQuarters q d.digits d.scale
  (low = .lt || (even && low = .eq)) && (high = .gt || (even && high = .eq))

/-- the magnitude in units of `10 ^ k`, rounded down -/
def floorAt (x : Magnitude) (k : Int) : Nat :=
  x.significand * Nat.pow 2 x.exponent.toNat * Nat.pow 10 (-k).toNat
    / (Nat.pow 2 (-x.exponent).toNat * Nat.pow 10 k.toNat)

/-- whether the point above the magnitude on the grid of `10 ^ k` counts rather than `c`, the one
below: it is nearer, or as near and the tie goes to it -/
def prefersAbove (x : Magnitude) (t : Tie) (c : Nat) (k : Int) : Bool :=
  match compareScaled (2 * x.significand) x.exponent (2 * c + 1) k with
  | .gt => true
  | .lt => false
  | .eq => t = .up || c % 2 = 1

/-- the best decimal on the grid of `10 ^ k`, if one of the magnitude's two neighbours rounds to it -/
def onGrid (x : Magnitude) (t : Tie) (k : Int) : Option Scaled :=
  let c := x.floorAt k
  let below : Scaled := ⟨c, k⟩
  let above : Scaled := ⟨c + 1, k⟩
  match 0 < c && x.holds below, x.holds above with
  | true, true => some (if x.prefersAbove t c k then above else below)
  | true, false => some below
  | false, true => some above
  | false, false => none

/-- the first grid with a hit, from coarse to fine -/
def search (x : Magnitude) (t : Tie) : Nat → Int → Scaled
  | 0, k => ⟨x.floorAt k, k⟩
  | fuel + 1, k => (x.onGrid t k).getD (search x t fuel (k - 1))

/-- a grid so coarse that the magnitude is below one unit -/
def coarsest (x : Magnitude) : Int :=
  -- `30103 / 100000` exceeds `log10 2`
  (x.exponent + x.significand.log2 + 1) * 30103 / 100000 + 2

/-- a decimal without trailing zeros -/
def strip (fuel : Nat) (d : Scaled) : Scaled :=
  match fuel with
  | 0 => d
  | fuel + 1 => if 0 < d.digits ∧ d.digits % 10 = 0 then strip fuel ⟨d.digits / 10, d.scale + 1⟩ else d

/-- the decimal with the fewest digits that rounds to the magnitude, the nearest of those -/
def shortest (x : Magnitude) (t : Tie) : Scaled := strip 20 (x.search t 24 x.coarsest)

end Magnitude

end DeviceHub.Decimal
