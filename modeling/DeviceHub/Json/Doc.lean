import DeviceHub.Decimal.Layout
import DeviceHub.Hex

/-!
# JSON documents

* `Doc`         a JSON document as it is written: numerals keep their digits, members their order
                and their repetitions;
* `Doc.torn`    the place where a text stops being JSON;
* `Doc.sound`   a document without such a place;
* `Doc.render`  the text of a document, without spaces.

A document that is read up to a fault and a document that is written are of one type, so that what
a decoder sees of a faulty text is the part in front of the fault.
-/

namespace DeviceHub.Json

/-- how the exponent of a numeral is signed -/
inductive Sign
  | bare
  | plus
  | minus
deriving DecidableEq, Repr

/-- a number as it is spelled; an empty fraction is none -/
structure Numeral where
  negative : Bool
  whole : List Char
  fraction : List Char
  exponent : Option (Sign × List Char)
deriving DecidableEq, Repr

/-- A JSON document.  A string or a key is `none` when its characters are not Unicode text: it holds
a lone surrogate or ill-formed octets. -/
inductive Doc where
  | null
  | bool (b : Bool)
  | number (n : Numeral)
  | string (s : Option String)
  | array (items : List Doc)
  | object (members : List (Option String × Doc))
  | torn
deriving Inhabited

namespace Numeral

def ofInt (i : Int) : Numeral := ⟨i < 0, Decimal.digits i.natAbs, [], none⟩

def ofParts (l : Decimal.Layout) (p : Decimal.Parts) : Numeral :=
  ⟨p.negative, p.whole, p.fraction, p.exponent.map fun e =>
    (if e < 0 then .minus else if l.plus && 0 < e then .plus else .bare, Decimal.digits e.natAbs)⟩

def signChars : Sign → List Char
  | .bare => []
  | .plus => ['+']
  | .minus => ['-']

def chars (n : Numeral) : List Char :=
  (if n.negative then ['-'] else []) ++ n.whole ++
    (if n.fraction.isEmpty then [] else '.' :: n.fraction) ++
    match n.exponent with
    | none => []
    | some (s, ds) => 'e' :: signChars s ++ ds

end Numeral

namespace Doc

def record (members : List (String × Doc)) : Doc := .object (members.map fun m => (some m.1, m.2))

def text (s : String) : Doc := .string (some s)

def int (i : Int) : Doc := .number (.ofInt i)

/-- the document of a double; what is no finite number is written as null -/
def float (x : Float) : Doc :=
  match Decimal.Layout.json.finite? x with
  | some p => .number (.ofParts .json p)
  | none => .null

mutual

/-- whether a document has no torn place -/
def sound : Doc → Bool
  | .torn => false
  | .array items => soundItems items
  | .object members => soundMembers members
  | _ => true

def soundItems : List Doc → Bool
  | [] => true
  | d :: ds => sound d && soundItems ds

def soundMembers : List (Option String × Doc) → Bool
  | [] => true
  | (_, d) :: ms => sound d && soundMembers ms

end

/-- a character inside quotes -/
def escape (c : Char) : List Char :=
  if c = '"' then ['\\', '"']
  else if c = '\\' then ['\\', '\\']
  else if c = '\x08' then ['\\', 'b']
  else if c = '\x0c' then ['\\', 'f']
  else if c = '\n' then ['\\', 'n']
  else if c = '\r' then ['\\', 'r']
  else if c = '\t' then ['\\', 't']
  else if c.toNat < 0x20 then
    ['\\', 'u', '0', '0', Hex.lower (c.toNat / 16), Hex.lower (c.toNat % 16)]
  else [c]

def quote (s : String) : List Char := '"' :: (s.toList.flatMap escape ++ ['"'])

/-- a string in quotes; what is not Unicode text has no written form -/
def quote? (s : Option String) : List Char := (s.map quote).getD []

mutual

def chars : Doc → List Char
  | .null => ['n', 'u', 'l', 'l']
  | .bool true => ['t', 'r', 'u', 'e']
  | .bool false => ['f', 'a', 'l', 's', 'e']
  | .number n => n.chars
  | .string s => quote? s
  | .array items => '[' :: itemsChars true items
  | .object members => '\x7b' :: membersChars true members
  | .torn => []

/-- the rest of an array; `first` says that no item stands before -/
def itemsChars (first : Bool) : List Doc → List Char
  | [] => [']']
  | d :: ds => (if first then [] else [',']) ++ chars d ++ itemsChars false ds

/-- the rest of an object; `first` says that no member stands before -/
def membersChars (first : Bool) : List (Option String × Doc) → List Char
  | [] => ['\x7d']
  | (k, d) :: ms =>
    (if first then [] else [',']) ++ quote? k ++ ':' :: chars d ++ membersChars false ms

end

def render (d : Doc) : String := String.ofList d.chars

end Doc

end DeviceHub.Json
