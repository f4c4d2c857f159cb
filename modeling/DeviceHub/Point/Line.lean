import DeviceHub.Decimal.Layout
import DeviceHub.Point

/-!
# Points as lines

* `Point.line?`  a point as one line: the measurement with its tags, the fields, and the time.

A backslash in front of a comma, a space or an equals sign makes it part of a name; string fields are
quoted.  Outside of quotes a line break is written as a space, so that a point is always one line.
Tags with empty values and fields that are no finite number are left out; a point without a field
has no line.
-/

namespace DeviceHub.Point

/-- a character of a name that stands where `special` ones have a meaning of their own -/
def escapeChar (special : List Char) (c : Char) : List Char :=
  let c := if c = '\r' ∨ c = '\n' then ' ' else c
  if c ∈ special then ['\\', c] else [c]

/-- a measurement: commas and spaces are marked -/
def measurementChars (s : String) : List Char := s.toList.flatMap (escapeChar [',', ' '])

/-- a key or a tag's value: commas, equals signs and spaces are marked -/
def nameChars (s : String) : List Char := s.toList.flatMap (escapeChar [',', '=', ' '])

/-- a character inside quotes -/
def quoteChar (c : Char) : List Char :=
  if c = '\\' then ['\\', '\\']
  else if c = '"' then ['\\', '"']
  else if c = '\r' then ['\\', 'r']
  else if c = '\n' then ['\\', 'n']
  else [c]

def quoteChars (s : String) : List Char := '"' :: (s.toList.flatMap quoteChar ++ ['"'])

/-- the value of a field; what is no finite number has none -/
def valueChars? : FieldValue → Option (List Char)
  | .float x => if x.isFinite then some (Decimal.reportText x).toList else none
  | .int i => some (Decimal.integerChars i.toInt ++ ['i'])
  | .bool b => some (if b then ['t', 'r', 'u', 'e'] else ['f', 'a', 'l', 's', 'e'])
  | .text s => some (quoteChars s)

def fieldChars? (f : String × FieldValue) : Option (List Char) :=
  (valueChars? f.2).map fun v => nameChars f.1 ++ '=' :: v

/-- a tag with its value, after a comma -/
def tagChars (t : String × String) : List Char :=
  if t.2.isEmpty then [] else ',' :: nameChars t.1 ++ '=' :: nameChars t.2

/-- the characters of a point, if it has a field that can be written -/
def lineChars? (p : Point) : Option (List Char) :=
  match p.fields.filterMap fieldChars? with
  | [] => none
  | fields =>
    some (measurementChars p.measurement ++ p.tags.flatMap tagChars ++
      ' ' :: (List.intercalate [','] fields ++ ' ' :: Decimal.integerChars p.ts.toInt))

/-- a point as one line, if it has a field that can be written -/
def line? (p : Point) : Option String := p.lineChars?.map String.ofList

end DeviceHub.Point
