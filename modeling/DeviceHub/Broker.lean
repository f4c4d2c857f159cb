import DeviceHub.Decimal.Digits
import DeviceHub.Text.Blank

/-!
# Broker addresses

* `Broker.Address`       a host and a port;
* `Broker.Address.ofUrl?`  the address in a URL.

A URL is a host with an optional port after the last colon, optionally with `tcp://` or `mqtt://` in
front and slashes behind.  Other schemes are refused.
-/

namespace DeviceHub.Broker

/-- a host and a port -/
structure Address where
  host : String
  port : UInt16
deriving DecidableEq

/-- The port of a URL that names none. -/
def defaultPort : UInt16 := 1883

/-- the characters after a text that stands in front, if it does -/
def dropStart? (start : String) (cs : List Char) : Option (List Char) :=
  if start.toList.isPrefixOf cs then some (cs.drop start.length) else none

/-- whether a text stands somewhere in a sequence of characters -/
def contains (part : List Char) : List Char → Bool
  | [] => part.isEmpty
  | c :: cs => part.isPrefixOf (c :: cs) || contains part cs

/-- the characters before the slashes at the end -/
def trimSlashes (cs : List Char) : List Char := (cs.reverse.dropWhile (· = '/')).reverse

def splitLastColon? (cs : List Char) : Option (List Char × List Char) :=
  let tail := (cs.reverse.takeWhile (· ≠ ':')).reverse
  if tail.length < cs.length then some (cs.take (cs.length - tail.length - 1), tail) else none

/-- the number of a port; zero and numbers beyond 16 bits are none -/
def port? (cs : List Char) : Option UInt16 := do
  let n ← Decimal.unsigned? cs
  if 0 < n ∧ n < 0x10000 then some (UInt16.ofNat n) else none

def Address.ofHostPort? (cs : List Char) : Option Address :=
  match splitLastColon? cs with
  | some (host, port) => do
    let port ← port? port
    if host.isEmpty then none else some ⟨String.ofList host, port⟩
  | none => if cs.isEmpty then none else some ⟨String.ofList cs, defaultPort⟩

def Address.ofUrl? (url : String) : Option Address :=
  let cs := Text.trimChars url.toList
  let rest := (dropStart? "tcp://" cs <|> dropStart? "mqtt://" cs).getD cs
  if contains [':', '/', '/'] rest then none else ofHostPort? (trimSlashes rest)

end DeviceHub.Broker
