import DeviceHub.Json.Number
import DeviceHub.Json.Scan

/-!
# Values as JSON

* `Fault`        why a document is refused: it is no JSON, or it is not of the expected kind;
* `Codec`        how the values of a type are read from documents and written as documents;
* `Codec.decode` the value of a whole text, `Codec.decodeStart` of a text with anything after it;
* codecs for text, truth values, integers, doubles, options and lists.

A document is read from its start, so of two faults the first one is reported.  Arrays and objects
may be nested 127 deep; `room` is how many levels may still be entered.
-/

namespace DeviceHub.Json

/-- why a document is refused -/
inductive Fault
  /-- it is not JSON, or a string of it is no text, a number too large, or the nesting too deep -/
  | malformed
  /-- it is JSON of another shape than expected -/
  | mismatch
deriving DecidableEq, Repr

/-- The number of nested arrays and objects that may be entered. -/
def maxDepth : Nat := 127

/-- what is wrong with a document where a scalar or container of another kind is expected -/
def Doc.refusal : Doc → Fault
  | .torn | .string none => .malformed
  | .number n => if n.value?.isNone then .malformed else .mismatch
  | _ => .mismatch

/-- the room inside a container -/
def enter : Nat → Except Fault Nat
  | 0 => .error .malformed
  | room + 1 => .ok room

/-- how values of a type are read, with the room that is left, and written -/
structure Codec (α : Type) where
  read : Nat → Doc → Except Fault α
  write : α → Doc

namespace Codec

/-- the value that symbols begin with, whatever follows it -/
def decodeStart {α : Type} (c : Codec α) (s : List Text.Utf8.Symbol) : Except Fault α :=
  c.read maxDepth (Doc.scan s).1

/-- the value of symbols, with nothing but spaces after it -/
def decodeSymbols {α : Type} (c : Codec α) (s : List Text.Utf8.Symbol) : Except Fault α :=
  let (d, rest) := Doc.scan s
  match c.read maxDepth d with
  | .error e => .error e
  | .ok a => if (skipSpace rest).isEmpty then .ok a else .error .malformed

def decode {α : Type} (c : Codec α) (octets : List UInt8) : Except Fault α :=
  c.decodeSymbols (Text.Utf8.decode octets)

def decodeText {α : Type} (c : Codec α) (s : String) : Except Fault α :=
  c.decodeSymbols (Text.Utf8.symbols s)

def encode {α : Type} (c : Codec α) (a : α) : String := (c.write a).render

def text : Codec String where
  read _
    | .string (some s) => .ok s
    | d => .error d.refusal
  write := .text

def bool : Codec Bool where
  read _
    | .bool b => .ok b
    | d => .error d.refusal
  write := .bool

def readNum : Doc → Except Fault Num
  | .number n =>
    match n.value? with
    | some v => .ok v
    | none => .error .malformed
  | d => .error d.refusal

/-- integers from `low` to `high`, spelled without fraction and exponent -/
def intWithin (low high : Int) : Codec Int where
  read _ d := do
    match ← readNum d with
    | .int i => if low ≤ i ∧ i ≤ high then .ok i else .error .mismatch
    | .float _ => .error .mismatch
  write := .int

def int64 : Codec Int64 where
  read room d := ((intWithin (-0x8000000000000000) 0x7fffffffffffffff).read room d).map Int64.ofInt
  write i := .int i.toInt

def uint64 : Codec UInt64 where
  read room d := ((intWithin 0 0xffffffffffffffff).read room d).map fun i => UInt64.ofNat i.toNat
  write n := .int n.toNat

def float : Codec Float where
  read _ d := do
    -- integers count as doubles
    let x := match ← readNum d with
      | .int i => Float.ofInt i
      | .float x => x
    if x.isFinite then .ok x else .error .malformed
  write := .float

/-- values that may be null -/
def option {α : Type} (c : Codec α) : Codec (Option α) where
  read room
    | .null => .ok none
    | d => (c.read room d).map some
  write
    | none => .null
    | some a => c.write a

def list {α : Type} (c : Codec α) : Codec (List α) where
  read room
    | .array items => do
      let room ← enter room
      items.mapM (c.read room)
    | d => .error d.refusal
  write as := .array (as.map c.write)

/-- A choice between names: the name itself, or an object that maps the name to null. -/
def choice {α : Type} (name : α → String) (all : List α) : Codec α where
  read room d :=
    let find (s : String) : Except Fault α :=
      match all.find? fun a => name a = s with
      | some a => .ok a
      | none => .error .mismatch
    match d with
    | .string (some s) => find s
    | .object [(some s, .null)] => do
      let _ ← enter room
      find s
    | d => .error (match d with | .object _ => .malformed | d => d.refusal)
  write a := .text (name a)

end Codec

end DeviceHub.Json
