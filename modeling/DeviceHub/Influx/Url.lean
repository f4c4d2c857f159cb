import DeviceHub.Hex
import DeviceHub.Text.Utf8

/-!
# Absolute HTTP URLs

* `Url`            the authority, the path and the query of an absolute HTTP URL;
* `Url.ofText?`    the URL that a text spells;
* `Url.withQuery`  the URL with further pairs in its query;
* `Url.target`     what a request for the URL names.

Characters that cannot stand in a path or a query are written as percent signs with their octets.
Segments of one or two dots are taken as directions, and a fragment is dropped.
-/

namespace DeviceHub.Influx

def percentOctet (b : UInt8) : List Char := ['%', Hex.upper (b.toNat / 16), Hex.upper (b.toNat % 16)]

/-- a character that is kept, or the octets of one that is not -/
def percentUnless (keep : Char → Bool) (c : Char) : List Char :=
  if keep c then [c] else (String.utf8EncodeChar c).flatMap percentOctet

/-- the octets of a text in a form -/
def formEncode (s : String) : List Char :=
  s.toList.flatMap fun c =>
    if c = ' ' then ['+']
    else percentUnless (fun c => c.isAlphanum || c ∈ ['*', '-', '.', '_']) c

/-- the printable characters of ASCII without certain ones -/
def printableExcept (not : List Char) (c : Char) : Bool :=
  0x20 < c.toNat && c.toNat < 0x7F && c ∉ not

def isPathChar : Char → Bool := printableExcept ['"', '#', '<', '>', '?', '\x60', '\x7b', '\x7d']

def isQueryChar : Char → Bool := printableExcept ['"', '#', '<', '>', '\'']

/-- an absolute HTTP URL; the path begins with a slash -/
structure Url where
  authority : List Char
  path : List Char
  query : Option (List Char)
deriving DecidableEq

namespace Url

/-- whether a segment is a dot, or the octet of one -/
def isDot (s : List Char) : Bool := s ∈ ["." , "%2e", "%2E"].map String.toList

/-- whether a segment is two dots -/
def isDots (s : List Char) : Bool :=
  s ∈ ["..", ".%2e", ".%2E", "%2e.", "%2E.", "%2e%2e", "%2e%2E", "%2E%2e", "%2E%2E"].map
    String.toList

/-- the segments of a path after its directions are taken, the last one first -/
def resolve (done : List (List Char)) : List (List Char) → List (List Char)
  | [] => done
  | [s] => if isDots s then [] :: done.drop 1 else if isDot s then [] :: done else s :: done
  | s :: rest => resolve (if isDots s then done.drop 1 else if isDot s then done else s :: done) rest

/-- the path of raw characters after the authority -/
def pathOf (cs : List Char) : List Char :=
  let slashes := cs.map fun c => if c = '\\' then '/' else c
  let segments := (if slashes.head? = some '/' then slashes.drop 1 else slashes).splitOn '/'
  let encoded := segments.map fun s => s.flatMap (percentUnless isPathChar)
  (resolve [] encoded).reverse.flatMap ('/' :: ·)

/-- the characters after an `http` scheme in any case and its slashes -/
def afterScheme? (cs : List Char) : Option (List Char) :=
  let (scheme, rest) := (cs.take 5, cs.drop 5)
  if scheme.map Char.toLower = "http:".toList then
    some (rest.dropWhile fun c => c = '/' || c = '\\')
  else none

/-- the URL that a text spells -/
def ofText? (s : String) : Option Url := do
  -- neither controls and spaces around the text nor tabs and line breaks in it count
  let outer (c : Char) : Bool := c.toNat ≤ 0x20
  let trimmed := ((s.toList.dropWhile outer).reverse.dropWhile outer).reverse
  let cs ← afterScheme? (trimmed.filter fun c => c ∉ ['\t', '\n', '\r'])
  let (authority, rest) := cs.span fun c => c ∉ ['/', '\\', '?', '#']
  let (path, rest) := rest.span fun c => c ≠ '?' && c ≠ '#'
  if authority.isEmpty then none
  else
    let query :=
      match rest with
      | '?' :: rest =>
        some ((rest.takeWhile (· ≠ '#')).flatMap (percentUnless isQueryChar))
      | _ => none
    return ⟨authority.map Char.toLower, pathOf path, query⟩

def withQuery (u : Url) (pairs : List (String × String)) : Url :=
  let encoded := pairs.map fun p => formEncode p.1 ++ '=' :: formEncode p.2
  -- an empty query needs no separator after it
  let before := (u.query.filter fun q => !q.isEmpty).toList
  { u with query := some (List.intercalate ['&'] (before ++ encoded)) }

/-- what a request for the URL names: the path and the query -/
def target (u : Url) : String :=
  String.ofList (u.path ++ (u.query.map ('?' :: ·)).getD [])

end Url

end DeviceHub.Influx
