import DeviceHub.Decimal.Nearest
import DeviceHub.Toml.Text
import DeviceHub.Toml.Value

/-!
# TOML numbers, dates and truth values

* `scalar?`   the value of a word: a truth value, an integer, a float, a date or a time;
* `isDate`, `isTime`  the words that are dates and times of the day.

A word is a longest run of letters, digits, signs, points, colons and underscores.
-/

namespace DeviceHub.Toml

def isWordChar (c : Char) : Bool :=
  c.isAlphanum || c = '+' || c = '-' || c = '_' || c = '.' || c = ':'

/-- digits without the underscores, each of which stands between two digits -/
def ungroup (ok : Char → Bool) : List Char → Option (List Char)
  | [] => none
  | [c] => if ok c then some [c] else none
  | c :: '_' :: rest => if ok c then (ungroup ok rest).map (c :: ·) else none
  | c :: rest => if ok c then (ungroup ok rest).map (c :: ·) else none

/-- the sign of a word, negative or not, and the rest of it -/
def splitSign : List Char → Bool × List Char
  | '-' :: rest => (true, rest)
  | '+' :: rest => (false, rest)
  | rest => (false, rest)

/-- decimal digits without a leading zero, except zero itself -/
def decimal? (cs : List Char) : Option (List Char) := do
  let ds ← ungroup Decimal.isDigit cs
  if ds.head? = some '0' ∧ 1 < ds.length then none else some ds

def basedInt? (base : Nat) (cs : List Char) : Option Int := do
  let ds ← ungroup (fun c => (Hex.value? c).any (· < base)) cs
  let ns ← ds.mapM Hex.value?
  let n := ns.foldl (fun n d => n * base + d) 0
  if n < 0x8000000000000000 then some n else none

def int? (word : List Char) : Option Int :=
  match word with
  | '0' :: 'x' :: ds => basedInt? 16 ds
  | '0' :: 'o' :: ds => basedInt? 8 ds
  | '0' :: 'b' :: ds => basedInt? 2 ds
  | _ => do
    let (negative, rest) := splitSign word
    let n := Decimal.value (← decimal? rest)
    if negative then (if n ≤ 0x8000000000000000 then some (-(n : Int)) else none)
    else if n < 0x8000000000000000 then some n
    else none

/-- the exponent of a float, after its letter -/
def exponent? (cs : List Char) : Option Int := do
  let (negative, rest) := splitSign cs
  let n := Decimal.value (← ungroup Decimal.isDigit rest)
  return if negative then -(n : Int) else n

/-- the characters before the first one that satisfies `p`, and those after it if there is one -/
def splitAt? (p : Char → Bool) (cs : List Char) : List Char × Option (List Char) :=
  match cs.span fun c => !p c with
  | (before, []) => (before, none)
  | (before, _ :: after) => (before, some after)

/-- the float of a word: digits with a fraction, an exponent or both -/
def float? (word : List Char) : Option Float := do
  let (negative, rest) := splitSign word
  if rest = ['i', 'n', 'f'] then
    return if negative then -1.0 / 0.0 else 1.0 / 0.0
  else if rest = ['n', 'a', 'n'] then
    return 0.0 / 0.0
  else
    let (mantissa, e) := splitAt? (fun c => c = 'e' || c = 'E') rest
    let (whole, fraction) := splitAt? (· = '.') mantissa
    let ds ← decimal? whole
    let fs ← match fraction with
      | some cs => ungroup Decimal.isDigit cs
      | none => some []
    let e ← match e with
      | some cs => exponent? cs
      | none => if fraction.isSome then some 0 else none
    let x := Decimal.nearest (Decimal.value (ds ++ fs)) (e - fs.length)
    -- only a positive float beyond the largest double is refused
    if negative then return -x
    else if x.isInf then none
    else return x

/-- the number of exactly two digits -/
def two? (a b : Char) : Option Nat := Decimal.digits? [a, b]

def daysIn (year month : Nat) : Nat :=
  if month = 2 then
    if year % 4 = 0 ∧ (year % 100 ≠ 0 ∨ year % 400 = 0) then 29 else 28
  else if month ∈ [4, 6, 9, 11] then 30
  else 31

def isDate : List Char → Bool
  | [a, b, c, d, '-', e, f, '-', g, h] =>
    match Decimal.digits? [a, b, c, d], two? e f, two? g h with
    | some year, some month, some day =>
      1 ≤ month && month ≤ 12 && 1 ≤ day && day ≤ daysIn year month
    | _, _, _ => false
  | _ => false

def isHourMinute (a b c d : Char) : Bool :=
  (two? a b).any (· ≤ 23) && (two? c d).any (· ≤ 59)

/-- the rest of a time after hour, minute and second: a fraction of seconds -/
def afterFraction : List Char → Option (List Char)
  | '.' :: rest =>
    let (ds, rest) := rest.span Decimal.isDigit
    if ds.isEmpty then none else some rest
  | rest => some rest

/-- the rest of a word after a time of the day -/
def afterTime : List Char → Option (List Char)
  | a :: b :: ':' :: c :: d :: ':' :: e :: f :: rest =>
    -- a minute may end with a leap second
    if isHourMinute a b c d && (two? e f).any (· ≤ 60) then afterFraction rest else none
  | _ => none

def isTime (word : List Char) : Bool := afterTime word = some []

/-- whether a word is a distance from universal time, or empty -/
def isOffset : List Char → Bool
  | [] | ['Z'] | ['z'] => true
  | [s, a, b, ':', c, d] => (s = '+' || s = '-') && isHourMinute a b c d
  | _ => false

/-- whether a word is a time of the day, with or without a distance from universal time -/
def isZonedTime (word : List Char) : Bool := (afterTime word).any isOffset

/-- whether a word is a date with a time, separated by a letter -/
def isDateTime (word : List Char) : Bool :=
  isDate (word.take 10) &&
    match word.drop 10 with
    | c :: time => (c = 'T' || c = 't') && isZonedTime time
    | [] => false

def scalar? (word : List Char) : Option Value :=
  if word = ['t', 'r', 'u', 'e'] then some (.bool true)
  else if word = ['f', 'a', 'l', 's', 'e'] then some (.bool false)
  else if isDate word || isTime word || isDateTime word then some (.date (String.ofList word))
  else
    match int? word with
    | some i => some (.int i)
    | none => (float? word).map .float

end DeviceHub.Toml
