import DeviceHub.Proofs.Decimal.Digits

/-!
# A reader of lines

Points are read back from their lines.  A comma, an equals sign or a space separates what stands
around it unless the character just before it is a backslash; in front of them a backslash is no
part of a name.  An equals sign separates a key from its value, and has no meaning in a measurement.

* `Reading`          what a line shows of a point;
* `Reader.token`     the text up to the next separator, and the rest from there on;
* `Reader.unmark`    a name without the backslashes that mark separators;
* `Reader.quoted?`, `Reader.plain?`   the value of a field;
* `Reader.series?`   items that each follow a comma, up to a space;
* `Reader.read?`     a whole line.
-/

namespace DeviceHub.Point

/-- the value of a field as a line shows it; the text of a double is kept -/
inductive Reading.Value
  | float (text : String)
  | int (i : Int64)
  | text (s : String)
  | bool (b : Bool)
deriving DecidableEq

/-- what a line shows of a point -/
structure Reading where
  measurement : String
  tags : List (String × String)
  fields : List (String × Reading.Value)
  ts : Int64
deriving DecidableEq

namespace Reader

def separators : List Char := [',', '=', ' ']

def stops : List Char := [',', ' ']

/-- the text up to the first separator that does not follow a backslash, and the rest from that one
on; `marked` says whether a backslash stands just before -/
def token (seps : List Char) : Bool → List Char → List Char × List Char
  | _, [] => ([], [])
  | marked, c :: cs =>
    if marked = false ∧ c ∈ seps then ([], c :: cs)
    else
      let r := token seps (c = '\\') cs
      (c :: r.1, r.2)

/-- a name without the backslashes in front of separators -/
def unmark (seps : List Char) : List Char → List Char
  | [] => []
  | [c] => [c]
  | c :: d :: cs =>
    if c = '\\' ∧ d ∈ seps then d :: unmark seps cs else c :: unmark seps (d :: cs)

/-- the character that is meant by one after a backslash inside quotes -/
def quotedChar? : Char → Option Char
  | '\\' => some '\\'
  | '"' => some '"'
  | 'n' => some '\n'
  | 'r' => some '\r'
  | _ => none

/-- the text up to the closing quote, and the rest after it -/
def quoted? : List Char → Option (List Char × List Char)
  | [] => none
  | '"' :: cs => some ([], cs)
  | '\\' :: c :: cs =>
    match quotedChar? c with
    | some d => (quoted? cs).map fun r => (d :: r.1, r.2)
    | none => none
  | c :: cs => (quoted? cs).map fun r => (c :: r.1, r.2)

/-- the number of 64 bits that a text stands for -/
def int64? (cs : List Char) : Option Int64 :=
  match Decimal.signed? cs with
  | some i => if -0x8000000000000000 ≤ i ∧ i < 0x8000000000000000 then some (.ofInt i) else none
  | none => none

/-- a value that is not quoted: a truth value, an integer with an `i` after it, or a double -/
def plain? (cs : List Char) : Option Reading.Value :=
  if cs = ['t', 'r', 'u', 'e'] then some (.bool true)
  else if cs = ['f', 'a', 'l', 's', 'e'] then some (.bool false)
  else if cs.getLast? = some 'i' then (int64? cs.dropLast).map .int
  else if cs ≠ [] ∧ cs.all Decimal.isNumeric then some (.float (.ofList cs))
  else none

/-- the value of a field, and the rest after it -/
def value? : List Char → Option (Reading.Value × List Char)
  | '"' :: cs => (quoted? cs).map fun r => (.text (.ofList r.1), r.2)
  | cs =>
    let r := token separators false cs
    (plain? r.1).map fun v => (v, r.2)

def key? (cs : List Char) : Option (String × List Char) :=
  match token separators false cs with
  | (key, '=' :: rest) => some (.ofList (unmark separators key), rest)
  | _ => none

def tag? (cs : List Char) : Option ((String × String) × List Char) :=
  (key? cs).map fun k =>
    let r := token separators false k.2
    ((k.1, .ofList (unmark separators r.1)), r.2)

def field? (cs : List Char) : Option ((String × Reading.Value) × List Char) :=
  (key? cs).bind fun k => (value? k.2).map fun v => ((k.1, v.1), v.2)

variable {α : Type}

/-- items that each follow a comma, and the rest after the space that ends them -/
def series? (item? : List Char → Option (α × List Char)) :
    List Char → Option (List α × List Char)
  | ' ' :: cs => some ([], cs)
  | ',' :: cs =>
    match item? cs with
    | some (a, rest) =>
      if rest.length ≤ cs.length then (series? item? rest).map fun r => (a :: r.1, r.2) else none
    | none => none
  | _ => none
termination_by cs => cs.length
decreasing_by
  rw [List.length_cons]
  omega

def readChars? (line : List Char) : Option Reading :=
  let m := token stops false line
  (series? tag? m.2).bind fun tags =>
    (field? tags.2).bind fun first =>
      (series? field? first.2).bind fun others =>
        (int64? others.2).map fun ts =>
          ⟨.ofList (unmark stops m.1), tags.1, first.1 :: others.1, ts⟩

def read? (line : String) : Option Reading := readChars? line.toList

end Reader

end DeviceHub.Point
