import DeviceHub.Hex

/-!
# Socket addresses

* `SocketAddress`           an IP address of either version with a port;
* `SocketAddress.ofText?`   the address that a text spells;
* `SocketAddress.text`      the canonical text of an address.

Version 4 addresses are four decimal numbers without leading zeros.  Version 6 addresses stand in
brackets; they are eight groups of up to four hexadecimal digits, where one double colon stands for
one or more groups of zeros and the last two groups may be spelled as a version 4 address.  A scope
is a decimal number after a percent sign.
-/

namespace DeviceHub

/-- an IP address with a port -/
inductive SocketAddress
  | v4 (octets : List Nat) (port : Nat)
  | v6 (groups : List Nat) (scope : Nat) (port : Nat)
deriving DecidableEq

namespace SocketAddress

/-! ## Reading -/

/-- the leading decimal digits as a number up to `limit`, and the characters after them -/
def scanDecimal (limit : Nat) (cs : List Char) : Option (Nat × List Char) := do
  let (ds, rest) := cs.span Decimal.isDigit
  let n ← Decimal.digits? ds
  if n ≤ limit then some (n, rest) else none

/-- an octet: at most three digits, without a leading zero unless it is the only digit -/
def scanOctet (cs : List Char) : Option (Nat × List Char) := do
  let ds := cs.takeWhile Decimal.isDigit
  if ds.length > 3 ∨ (ds.head? = some '0' ∧ 1 < ds.length) then none else scanDecimal 255 cs

def expect (c : Char) : List Char → Option (List Char)
  | d :: rest => if d = c then some rest else none
  | [] => none

/-- four octets with points between them -/
def scanV4 (cs : List Char) : Option (List Nat × List Char) := do
  let (a, cs) ← scanOctet cs
  let (b, cs) ← scanOctet (← expect '.' cs)
  let (c, cs) ← scanOctet (← expect '.' cs)
  let (d, cs) ← scanOctet (← expect '.' cs)
  return ([a, b, c, d], cs)

/-- a group of one to four hexadecimal digits -/
def scanGroup (cs : List Char) : Option (Nat × List Char) :=
  let (ds, rest) := cs.span fun c => (Hex.value? c).isSome
  if ds.isEmpty ∨ 4 < ds.length then none
  else some (ds.foldl (fun n c => n * 16 + (Hex.value? c).getD 0) 0, rest)

/-- Up to `limit` groups with colons between them, whether a version 4 address gave the last two,
and the characters after them.  A colon that no group follows is not consumed. -/
def scanGroups : Nat → Bool → List Char → List Nat × Bool × List Char
  | 0, _, cs => ([], false, cs)
  | limit + 1, first, cs =>
    match (if first then some cs else expect ':' cs) with
    | none => ([], false, cs)
    | some inner =>
      match (if 1 ≤ limit then scanV4 inner else none) with
      | some ([a, b, c, d], rest) => ([a * 256 + b, c * 256 + d], true, rest)
      | _ =>
        match scanGroup inner with
        | none => ([], false, cs)
        | some (g, rest) =>
          let (gs, mixed, rest) := scanGroups limit false rest
          (g :: gs, mixed, rest)

/-- eight groups, one double colon standing for those that are missing -/
def scanV6 (cs : List Char) : Option (List Nat × List Char) :=
  let (head, mixed, rest) := scanGroups 8 true cs
  if head.length = 8 then some (head, rest)
  else if mixed then none
  else
    match rest with
    | ':' :: ':' :: rest =>
      let (tail, _, rest) := scanGroups (7 - head.length) true rest
      some (head ++ List.replicate (8 - head.length - tail.length) 0 ++ tail, rest)
    | _ => none

/-- the scope of an address, zero when there is none -/
def scanScope : List Char → Option (Nat × List Char)
  | '%' :: rest => scanDecimal 0xffffffff rest
  | rest => some (0, rest)

/-- a port after its colon, and nothing behind it -/
def port? (cs : List Char) : Option Nat := do
  let (port, rest) ← scanDecimal 65535 (← expect ':' cs)
  if rest.isEmpty then some port else none

def ofText? (s : String) : Option SocketAddress :=
  match s.toList with
  | '[' :: cs => do
    let (groups, cs) ← scanV6 cs
    let (scope, cs) ← scanScope cs
    return .v6 groups scope (← port? (← expect ']' cs))
  | cs => do
    let (octets, cs) ← scanV4 cs
    return .v4 octets (← port? cs)

/-! ## Writing -/

/-- the hexadecimal digits of a group, without leading zeros -/
def hexText (n : Nat) : String := String.ofList (Nat.toDigits 16 n)

def joined (separator : String) (f : Nat → String) (ns : List Nat) : String :=
  separator.intercalate (ns.map f)

/-- the number of leading zeros -/
def zeros (gs : List Nat) : Nat := (gs.takeWhile (· = 0)).length

/-- where the first longest run of zeros starts and how long it is, from a position on -/
def longestZeros : Nat → List Nat → Nat × Nat
  | _, [] => (0, 0)
  | i, g :: gs =>
    let here := zeros (g :: gs)
    let later := longestZeros (i + 1) gs
    if 0 < here ∧ later.2 ≤ here then (i, here) else later

/-- The text of a version 6 address.  A version 4 address in it is spelled as one when it is marked
as mapped; else the first longest run of at least two zeros becomes a double colon. -/
def v6Text (gs : List Nat) : String :=
  match gs with
  | [0, 0, 0, 0, 0, 0xffff, a, b] =>
    "::ffff:" ++ joined "." Decimal.natural [a / 256, a % 256, b / 256, b % 256]
  | _ =>
    let (start, length) := longestZeros 0 gs
    if 1 < length then
      joined ":" hexText (gs.take start) ++ "::" ++ joined ":" hexText (gs.drop (start + length))
    else joined ":" hexText gs

/-- the canonical text of an address -/
def text : SocketAddress → String
  | .v4 octets port => joined "." Decimal.natural octets ++ ":" ++ Decimal.natural port
  | .v6 groups scope port =>
    "[" ++ v6Text groups ++ (if scope = 0 then "" else "%" ++ Decimal.natural scope) ++ "]:" ++
      Decimal.natural port

end SocketAddress

end DeviceHub
