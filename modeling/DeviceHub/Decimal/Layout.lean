import DeviceHub.Decimal.Shortest

/-!
# Doubles as text

* `Layout`          which exponents are written in place, how the others are marked, and which of two
                    equally near decimals is written;
* `Layout.finite?`  the sign, digits and exponent of a finite double in a layout;
* `Layout.report`   the layout of the time-series line and of single values;
* `Layout.json`     the layout of JSON numbers.

Both layouts write the fewest digits that read back, at least one of them after the point when the
number is written in place.
-/

namespace DeviceHub.Decimal

/-- The decimal exponents `e` with `first ≤ e < last` are written in place; others follow an `e`,
with a plus sign in front of positive ones if `plus` says so. -/
structure Layout where
  first : Int
  last : Int
  plus : Bool
  tie : Tie

/-- the parts of a written number: sign, digits before and after the point, and exponent -/
structure Parts where
  negative : Bool
  whole : List Char
  fraction : List Char
  exponent : Option Int

namespace Layout

/-- Numbers from 1e-5 on and below 1e16 are written in place, and a tie goes to the even digit. -/
def json : Layout := ⟨-5, 16, true, .even⟩

/-- Numbers from 1e-4 on and below 1e16 are written in place, no exponent has a plus sign, and a tie
goes to the larger decimal. -/
def report : Layout := ⟨-4, 16, false, .up⟩

/-- the digits around a point that stands after the first `e + 1` of them -/
def inPlace (ds : List Char) (e : Int) : List Char × List Char :=
  if e < 0 then (['0'], List.replicate (-e - 1).toNat '0' ++ ds)
  else
    let n := e.toNat + 1
    let whole := ds.take n ++ List.replicate (n - ds.length) '0'
    (whole, if ds.length ≤ n then ['0'] else ds.drop n)

def parts (l : Layout) (negative : Bool) (d : Scaled) : Parts :=
  let ds := digits d.digits
  -- the exponent when the point stands after the first digit
  let e := d.scale + (ds.length - 1 : Nat)
  if l.first ≤ e ∧ e < l.last then
    let (whole, fraction) := inPlace ds e
    ⟨negative, whole, fraction, none⟩
  else ⟨negative, ds.take 1, ds.drop 1, some e⟩

/-- a finite double laid out; infinities and values that are no number have no parts -/
def finite? (l : Layout) (x : Float) : Option Parts :=
  let bits := x.toBits.toNat
  let negative := 0x8000000000000000 ≤ bits
  if x.isFinite then
    match Magnitude.ofBits? bits with
    | none => some ⟨negative, ['0'], ['0'], none⟩
    | some m => some (l.parts negative (m.shortest l.tie))
  else none

def render (l : Layout) (p : Parts) : List Char :=
  (if p.negative then ['-'] else []) ++ p.whole ++
    (if p.fraction.isEmpty then [] else '.' :: p.fraction) ++
    match p.exponent with
    | none => []
    | some e => 'e' :: (if l.plus && 0 < e then ['+'] else []) ++ integerChars e

end Layout

/-- the text of a double in the report layout, which names infinities and what is no number -/
def reportText (x : Float) : String :=
  match Layout.report.finite? x with
  | some p => String.ofList (Layout.report.render p)
  | none => if x.isNaN then "NaN" else if x < 0 then "-inf" else "inf"

end DeviceHub.Decimal
