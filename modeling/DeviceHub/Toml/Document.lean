import DeviceHub.Toml.Scalar

/-!
# TOML documents

* `read?`  the entries of a document, if it is one.

A document is a sequence of lines, each of which is empty, a header or a key with its value, and may
end with a comment.  Arrays and inline tables nest at most 79 deep, and a dotted key has at most as
many parts.
-/

namespace DeviceHub.Toml

def maxNesting : Nat := 79

/-- the characters after spaces and tabs -/
def skipGaps (cs : List Char) : List Char := cs.dropWhile isGap

/-- the characters after a comment, from its first character on -/
def skipComment (cs : List Char) : List Char := cs.dropWhile isPlain

/-- the characters after the end of a line: spaces, a comment, and a line break or the end -/
def endLine (cs : List Char) : Option (List Char) :=
  let cs := skipGaps cs
  match (if cs.head? = some '#' then skipComment cs else cs) with
  | [] => some []
  | '\n' :: rest => some rest
  | '\r' :: '\n' :: rest => some rest
  | _ => none

/-- the characters after spaces, line breaks and comments; `comment` says that one has begun -/
def skipBlank (comment : Bool) : List Char → Option (List Char)
  -- here a comment has to end with a line break
  | [] => if comment then none else some []
  | '\n' :: rest => skipBlank false rest
  | '\r' :: '\n' :: rest => skipBlank false rest
  | c :: rest =>
    if comment then (if isPlain c then skipBlank true rest else none)
    else if isGap c then skipBlank false rest
    else if c = '#' then skipBlank true rest
    else some (c :: rest)

/-- the characters of keys without quotes -/
def isBareChar (c : Char) : Bool := c.isAlphanum || c = '_' || c = '-'

def scanPart (cs : List Char) : Option (String × List Char) :=
  match cs with
  | '"' :: _ | '\'' :: _ => (scanLineText cs).map fun (k, rest) => (String.ofList k, rest)
  | _ =>
    let (k, rest) := cs.span isBareChar
    if k.isEmpty then none else some (String.ofList k, rest)

/-- the parts of a key, of which there are at most `limit`, with spaces around each of them -/
def scanParts : Nat → List Char → Option (List String × List Char)
  | 0, _ => none
  | limit + 1, cs => do
    let (part, rest) ← scanPart (skipGaps cs)
    match skipGaps rest with
    | '.' :: rest =>
      let (parts, rest) ← scanParts limit rest
      return (part :: parts, rest)
    | rest => return ([part], rest)

/-- a key: the path in front of its last part, that part, and the characters after it -/
def scanKey (cs : List Char) : Option (List String × String × List Char) := do
  let (parts, rest) ← scanParts maxNesting cs
  return (parts.dropLast, ← parts.getLast?, rest)

/-- a word, and the characters after it -/
def scanScalar (cs : List Char) : Option (Value × List Char) := do
  let (word, rest) := cs.span isWordChar
  let v ← scalar? word
  match rest with
  | ' ' :: d :: more =>
    -- a time may follow a date after a single space
    if isDate word && Decimal.isDigit d then
      let (time, rest) := (d :: more).span isWordChar
      if isZonedTime time then return (.date (String.ofList (word ++ ' ' :: time)), rest) else none
    else return (v, rest)
  | _ => return (v, rest)

mutual

/-- a value with at most `room` arrays and inline tables inside each other, by at most `fuel` steps -/
def scanValue : Nat → Nat → List Char → Option (Value × List Char)
  | 0, _, _ => none
  | fuel + 1, room, cs =>
    match cs with
    | '"' :: _ | '\'' :: _ => (scanText cs).map fun (s, rest) => (.text (String.ofList s), rest)
    | '[' :: rest =>
      match room with
      | 0 => none
      | room + 1 => do
        let (items, rest) ← scanItems fuel room rest
        return (.array items, rest)
    | '\x7b' :: rest =>
      match room with
      | 0 => none
      | room + 1 =>
        match skipGaps rest with
        | '\x7d' :: rest => some (.table .closed [], rest)
        | rest => do
          let (entries, rest) ← scanEntries fuel room [] rest
          return (.table .closed entries, rest)
    | _ => scanScalar cs

/-- the rest of an array, after its bracket or a comma -/
def scanItems : Nat → Nat → List Char → Option (List Value × List Char)
  | 0, _, _ => none
  | fuel + 1, room, cs => do
    match ← skipBlank false cs with
    | ']' :: rest => return ([], rest)
    | cs =>
      let (v, rest) ← scanValue fuel room cs
      match ← skipBlank false rest with
      | ',' :: rest =>
        let (vs, rest) ← scanItems fuel room rest
        return (v :: vs, rest)
      | ']' :: rest => return ([v], rest)
      | _ => none

/-- the rest of an inline table from one of its keys on, added to the entries before -/
def scanEntries : Nat → Nat → Entries → List Char → Option (Entries × List Char)
  | 0, _, _, _ => none
  | fuel + 1, room, es, cs => do
    let (path, key, rest) ← scanKey cs
    match rest with
    | '=' :: rest =>
      let (v, rest) ← scanValue fuel room (skipGaps rest)
      let es ← assign path key v es
      match skipGaps rest with
      | ',' :: rest => scanEntries fuel room es rest
      | '\x7d' :: rest => return (es, rest)
      | _ => none
    | _ => none

end

/-- where a document is: the table that the last header named, and the entries so far -/
structure Place where
  section_ : List String
  entries : Entries

/-- the place after a header, and the rest of its line -/
def scanHeader (p : Place) : List Char → Option (Place × List Char)
  | '[' :: '[' :: rest => do
    let (path, key, rest) ← scanKey rest
    match rest with
    | ']' :: ']' :: rest => return (⟨path ++ [key], ← openElement path key p.entries⟩, rest)
    | _ => none
  | '[' :: rest => do
    let (path, key, rest) ← scanKey rest
    match rest with
    | ']' :: rest => return (⟨path ++ [key], ← openTable path key p.entries⟩, rest)
    | _ => none
  | _ => none

/-- the place after a key with its value, and the rest of its line -/
def scanEntry (p : Place) (cs : List Char) : Option (Place × List Char) := do
  let (path, key, rest) ← scanKey cs
  match rest with
  | '=' :: rest =>
    let rest := skipGaps rest
    let (v, rest) ← scanValue (2 * rest.length + 2) maxNesting rest
    return ({ p with entries := ← assignIn p.section_ path key v p.entries }, rest)
  | _ => none

/-- the entries after the lines that follow a place, of which there are at most `fuel` -/
def scanLines : Nat → Place → List Char → Option Entries
  | 0, _, _ => none
  | fuel + 1, p, cs =>
    match skipGaps cs with
    | [] => some p.entries
    | '#' :: _ | '\n' :: _ | '\r' :: _ => do scanLines fuel p (← endLine cs)
    | cs => do
      let (p, rest) ← if cs.head? = some '[' then scanHeader p cs else scanEntry p cs
      scanLines fuel p (← endLine rest)

/-- the entries of a document, which may begin with a byte order mark -/
def read? (s : String) : Option Entries :=
  let cs := match s.toList with
    | '\ufeff' :: rest => rest
    | cs => cs
  scanLines (cs.length + 1) ⟨[], []⟩ cs

end DeviceHub.Toml
