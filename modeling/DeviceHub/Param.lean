import DeviceHub.Json.Record
import DeviceHub.Sorted

/-!
# Parameter values

* `Param`         a value that commands and messages carry in their open parts;
* `Params`        named values, in key order;
* `Param.codec`   their JSON form, `Params.codec` that of named values.

A number is an integer when it is spelled as one and fits 64 bits, else a double.  When a name is
repeated the last value counts.
-/

namespace DeviceHub

/-- a value of an open part of a message -/
inductive Param where
  | null
  | bool (b : Bool)
  | int (i : Int64)
  | float (x : Float)
  | text (s : String)
  | list (items : List Param)
  | map (entries : List (String × Param))
deriving Inhabited

/-- named values in key order -/
abbrev Params := List (String × Param)

namespace Param

/-- the integer of a number; a double is cut off at its point and kept within 64 bits -/
def asInt64? : Param → Option Int64
  | .int i => some i
  | .float x => if x.isFinite then some x.toInt64 else none
  | _ => none

def asFloat? : Param → Option Float
  | .int i => some (Float.ofInt i.toInt)
  | .float x => some x
  | _ => none

def asBool? : Param → Option Bool
  | .bool b => some b
  | _ => none

def asText? : Param → Option String
  | .text s => some s
  | _ => none

def asMap? : Param → Option Params
  | .map m => some m
  | _ => none

def isNull : Param → Bool
  | .null => true
  | _ => false

/-- the value of a number: integers beyond 64 bits are doubles -/
def ofNum : Json.Num → Param
  | .int i => if i ≤ 0x7fffffffffffffff then .int (Int64.ofInt i) else .float (Float.ofInt i)
  | .float x => .float x

open Json in
mutual

def read (room : Nat) : Doc → Except Fault Param
  | .null => .ok .null
  | .bool b => .ok (.bool b)
  | .number n =>
    match n.value? with
    | some v => .ok (ofNum v)
    | none => .error .malformed
  | .string (some s) => .ok (.text s)
  | .string none => .error .malformed
  | .array items =>
    match room with
    | 0 => .error .malformed
    | room + 1 => (readItems room items).map .list
  | .object members =>
    match room with
    | 0 => .error .malformed
    | room + 1 => (readEntries room [] members).map .map
  | .torn => .error .malformed

def readItems (room : Nat) : List Doc → Except Fault (List Param)
  | [] => .ok []
  | d :: ds =>
    match read room d with
    | .error e => .error e
    | .ok p => (readItems room ds).map (p :: ·)

/-- entries with those of further members -/
def readEntries (room : Nat) (entries : Params) :
    List (Option String × Doc) → Except Fault Params
  | [] => .ok entries
  | (none, _) :: _ => .error .malformed
  | (some key, d) :: ms =>
    match read room d with
    | .error e => .error e
    | .ok p => readEntries room (Sorted.insert key p entries) ms

end

open Json in
mutual

def write : Param → Doc
  | .null => .null
  | .bool b => .bool b
  | .int i => .int i.toInt
  | .float x => .float x
  | .text s => .text s
  | .list items => .array (writeItems items)
  | .map entries => .object (writeEntries entries)

def writeItems : List Param → List Doc
  | [] => []
  | p :: ps => write p :: writeItems ps

def writeEntries : Params → List (Option String × Doc)
  | [] => []
  | (key, p) :: es => (some key, write p) :: writeEntries es

end

def codec : Json.Codec Param := ⟨read, write⟩

end Param

def Params.codec : Json.Codec Params where
  read room
    | .object members => do
      let room ← Json.enter room
      Param.readEntries room [] members
    | d => .error d.refusal
  write entries := .object (Param.writeEntries entries)

end DeviceHub
