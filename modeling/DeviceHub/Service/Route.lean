import DeviceHub.Hex
import DeviceHub.Text.Utf8

/-!
# Routes

* `pathOfTarget?`   the path of a request's target;
* `Route.ofPath?`   the route of a path;
* `Route.methods`   the methods that a route allows, for a response that names them.

A device in a path is one segment, in which percent signs and two hexadecimal digits stand for
octets.  It is `none` when the octets are no text.
-/

namespace DeviceHub.Service

def hexOctet? (a b : UInt8) : Option UInt8 := do
  let high ← Hex.value? (Char.ofUInt8 a)
  let low ← Hex.value? (Char.ofUInt8 b)
  return UInt8.ofNat (high * 16 + low)

/-- the octets that a segment stands for; a percent sign without two digits stands for itself -/
def percentDecode : List UInt8 → List UInt8
  | 37 :: a :: b :: rest =>
    match hexOctet? a b with
    | some c => c :: percentDecode rest
    | none => 37 :: percentDecode (a :: b :: rest)
  | c :: rest => c :: percentDecode rest
  | [] => []

/-- the text that a segment stands for -/
def segmentText? (s : String) : Option String :=
  Text.Utf8.text? (percentDecode (Text.Utf8.encode s))

/-- whether a character may stand in a path; characters beyond ASCII are taken as they are -/
def isPathChar (c : Char) : Bool := 0x20 < c.toNat && c ∉ ['<', '>', '\x60']

def isQueryChar (c : Char) : Bool := 0x20 < c.toNat && c ∉ ['"', '<', '>']

/-- whether a character may stand in the scheme of a URL -/
def isSchemeChar (c : Char) : Bool := c.isAlphanum || c ∈ ['+', '-', '.']

/-- the part of a target from its path on: all of a target that begins with a slash, and what follows
the authority of an absolute URL -/
def fromPath? (cs : List Char) : Option (List Char) :=
  match cs with
  | '/' :: _ => some cs
  | _ =>
    match cs.span isSchemeChar with
    | (scheme, ':' :: '/' :: '/' :: rest) =>
      let (authority, rest) := rest.span fun c => c ∉ ['/', '?', '#']
      if scheme.isEmpty || authority.isEmpty then none
      else some (if rest.head? = some '/' then rest else '/' :: rest)
    | _ => if cs.isEmpty || cs.any (· ∈ ['/', '?', '#']) then none else some cs

/-- the path of a target: what stands before a query and a fragment; a target that is empty or has a
character in it that must not stand there has none -/
def pathOfTarget? (target : String) : Option String := do
  let (path, rest) := (← fromPath? target.toList).span fun c => c ≠ '?' && c ≠ '#'
  let query :=
    match rest with
    | '?' :: rest => rest.takeWhile (· ≠ '#')
    | _ => []
  if path.all isPathChar && query.all isQueryChar then some (String.ofList path) else none

/-- what a path leads to -/
inductive Route
  | health
  | devices
  | device (id : Option String)
  | command (id : Option String)
deriving DecidableEq

namespace Route

/-- the segments of a path that begins with a slash -/
def segments? (path : String) : Option (List (List Char)) :=
  match path.toList with
  | '/' :: rest => some (rest.splitOn '/')
  | _ => none

def ofPath? (path : String) : Option Route := do
  match (← segments? path).map String.ofList with
  | ["health"] => some .health
  | ["api", "v1", "devices"] => some .devices
  | ["api", "v1", "devices", id] => if id = "" then none else some (.device (segmentText? id))
  | ["api", "v1", "dev", id, "cmd"] => some (.command (segmentText? id))
  | _ => none

/-- whether a route is for looking only, or for sending a command -/
def isReading : Route → Bool
  | .command _ => false
  | _ => true

def methods (r : Route) : List String := if r.isReading then ["GET", "HEAD"] else ["POST"]

/-- the methods of a route, as a response names them -/
def allow (r : Route) : String := ",".intercalate r.methods

end Route

end DeviceHub.Service
