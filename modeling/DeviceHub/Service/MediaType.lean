/-!
# Media types

* `MediaType.ofText?`  the media type that a header spells;
* `MediaType.isJson`   whether it is JSON, by its subtype or by the suffix of its subtype.

A media type is a type, a subtype and parameters.  The subtype ends at its last plus sign, if it has
one, and the suffix begins there.  Case does not matter.
-/

namespace DeviceHub.Service

/-- a type and a subtype with its suffix, in lower case -/
structure MediaType where
  kind : List Char
  subtype : List Char
  suffix : Option (List Char)
deriving DecidableEq

namespace MediaType

def isToken (c : Char) : Bool :=
  c.isAlphanum || c ∈ ['!', '#', '$', '%', '&', '\'', '*', '+', '-', '.', '^', '_', '\x60', '|', '~']

def isQuotable (c : Char) : Bool := 31 < c.toNat && c ≠ '\x7f'

/-- whether quoted characters, of which there is at least one, are followed by a quote, and after
spaces by another parameter; `none` when not, else the characters of that parameter -/
def afterQuoted (empty : Bool) : List Char → Option (List Char)
  | [] => none
  | c :: cs =>
    if c = '"' && !empty then
      match cs.dropWhile (· = ' ') with
      | [] => some []
      | ';' :: rest => some rest
      | _ => none
    else if isQuotable c then afterQuoted false cs
    else none

def afterValue (cs : List Char) : Option (List Char) :=
  match cs with
  | '"' :: rest => afterQuoted true rest
  | _ =>
    match cs.span isToken with
    | (_, []) => some []
    | (v, ';' :: rest) => if v.isEmpty then none else some rest
    | _ => none

/-- whether parameters are well-formed: names with values, separated by semicolons -/
def parametersOk : Nat → List Char → Bool
  | 0, _ => false
  | fuel + 1, cs =>
    match cs.dropWhile (· = ' ') with
    | [] => true
    | cs =>
      match cs.span isToken with
      | (name, '=' :: rest) =>
        !name.isEmpty &&
          match afterValue rest with
          | some rest => parametersOk fuel rest
          | none => false
      | _ => false

def splitSuffix (cs : List Char) : List Char × Option (List Char) :=
  -- a plus sign that is the first character begins no suffix
  let tail := (cs.reverse.takeWhile (· ≠ '+')).reverse
  if tail.length + 1 < cs.length then (cs.take (cs.length - tail.length - 1), some tail)
  else (cs, none)

def isVisible (c : Char) : Bool := (0x20 ≤ c.toNat && c.toNat < 0x7F) || c = '\t'

/-- whether what follows a subtype is nothing, or parameters after a semicolon -/
def tailOk : List Char → Bool
  | [] => true
  | ';' :: rest => parametersOk (rest.length + 1) rest
  | _ => false

def ofText? (s : String) : Option MediaType :=
  let lower (cs : List Char) : List Char := cs.map Char.toLower
  match s.toList.span isToken with
  | (kind, '/' :: rest) =>
    let (sub, rest) := rest.span isToken
    if kind.isEmpty || sub.isEmpty || !tailOk rest || !s.toList.all isVisible then none
    else
      let (subtype, suffix) := splitSuffix (lower sub)
      some ⟨lower kind, subtype, suffix⟩
  | _ => none

def isJson (m : MediaType) : Bool :=
  let json := "json".toList
  m.kind = "application".toList && (m.subtype = json || m.suffix = some json)

end MediaType

end DeviceHub.Service
