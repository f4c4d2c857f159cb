import DeviceHub.Json.Doc
import DeviceHub.Text.Utf8

/-!
# Reading JSON documents

* `Doc.scan`  the document that symbols begin with, and the symbols after it.

Every input yields a document.  Where the input stops being JSON the document is torn, and nothing
behind that place is read: a torn item ends an array, and a torn member ends an object.
-/

namespace DeviceHub.Json

open Text.Utf8 (Symbol)

/-- the four characters that may stand between tokens -/
def isSpace : Symbol → Bool
  | some ' ' | some '\t' | some '\n' | some '\r' => true
  | _ => false

def skipSpace (s : List Symbol) : List Symbol := s.dropWhile isSpace

def hex4? (a b c d : Symbol) : Option Nat := do
  let a ← Hex.value? (← a)
  let b ← Hex.value? (← b)
  let c ← Hex.value? (← c)
  let d ← Hex.value? (← d)
  return ((a * 16 + b) * 16 + c) * 16 + d

/-- a piece of a string: a symbol, or a 16-bit unit written as an escape -/
inductive Piece
  | raw (s : Symbol)
  | unit (n : Nat)

/-- the character that a one-letter escape stands for -/
def shortEscape? : Char → Option Char
  | '"' => some '"'
  | '\\' => some '\\'
  | '/' => some '/'
  | 'b' => some '\x08'
  | 'f' => some '\x0c'
  | 'n' => some '\n'
  | 'r' => some '\r'
  | 't' => some '\t'
  | _ => none

/-- the pieces up to the closing quote, and the symbols after it -/
def scanPieces : List Symbol → Option (List Piece × List Symbol)
  | [] => none
  | some '"' :: rest => some ([], rest)
  | some '\\' :: some 'u' :: a :: b :: c :: d :: rest => do
    let n ← hex4? a b c d
    let (ps, rest) ← scanPieces rest
    return (.unit n :: ps, rest)
  | some '\\' :: some e :: rest => do
    let c ← shortEscape? e
    let (ps, rest) ← scanPieces rest
    return (.raw (some c) :: ps, rest)
  | some '\\' :: _ => none
  | s :: rest =>
    if s.any fun c => c.toNat < 0x20 then none
    else do
      let (ps, rest) ← scanPieces rest
      return (.raw s :: ps, rest)

/-- the text of pieces -/
def joinPieces : List Piece → Option (List Char)
  | [] => some []
  | .raw none :: _ => none
  | .raw (some c) :: ps => (joinPieces ps).map (c :: ·)
  | .unit n :: .unit m :: ps =>
    -- two surrogates make one character, and a surrogate by itself none
    if 0xD800 ≤ n ∧ n < 0xDC00 ∧ 0xDC00 ≤ m ∧ m < 0xE000 then
      (joinPieces ps).map (Char.ofNat (0x10000 + (n - 0xD800) * 0x400 + (m - 0xDC00)) :: ·)
    else if 0xD800 ≤ n ∧ n < 0xE000 then none
    else (joinPieces (.unit m :: ps)).map (Char.ofNat n :: ·)
  | .unit n :: ps =>
    if 0xD800 ≤ n ∧ n < 0xE000 then none else (joinPieces ps).map (Char.ofNat n :: ·)

/-- a string after its opening quote: its text, if it is one, and the symbols after it -/
def scanString (s : List Symbol) : Option (Option String × List Symbol) :=
  (scanPieces s).map fun (ps, rest) => ((joinPieces ps).map String.ofList, rest)

/-- the leading digits, and the symbols after them -/
def scanDigits : List Symbol → List Char × List Symbol
  | [] => ([], [])
  | s :: rest =>
    match s with
    | some c =>
      if Decimal.isDigit c then
        let (ds, rest) := scanDigits rest
        (c :: ds, rest)
      else ([], s :: rest)
    | none => ([], s :: rest)

def scanFraction : List Symbol → Option (List Char × List Symbol)
  | some '.' :: rest =>
    let (ds, rest) := scanDigits rest
    if ds.isEmpty then none else some (ds, rest)
  | rest => some ([], rest)

def scanSign : List Symbol → Sign × List Symbol
  | some '+' :: rest => (.plus, rest)
  | some '-' :: rest => (.minus, rest)
  | rest => (.bare, rest)

def scanExponent : List Symbol → Option (Option (Sign × List Char) × List Symbol)
  | some 'e' :: rest | some 'E' :: rest =>
    let (sign, rest) := scanSign rest
    let (ds, rest) := scanDigits rest
    if ds.isEmpty then none else some (some (sign, ds), rest)
  | rest => some (none, rest)

/-- a number after its sign -/
def scanNumber (negative : Bool) (s : List Symbol) : Option (Numeral × List Symbol) := do
  let (whole, rest) := scanDigits s
  -- a leading zero stands alone in front of the point
  if whole.isEmpty ∨ (whole.head? = some '0' ∧ 1 < whole.length) then none
  else
    let (fraction, rest) ← scanFraction rest
    let (exponent, rest) ← scanExponent rest
    return (⟨negative, whole, fraction, exponent⟩, rest)

/-- the symbols after a word that has to follow -/
def scanWord (word : List Char) (s : List Symbol) : Option (List Symbol) :=
  if (word.map some).isPrefixOf s then some (s.drop word.length) else none

/-- a document, or a torn one with nothing after it -/
def orTorn : Option (Doc × List Symbol) → Doc × List Symbol
  | some r => r
  | none => (.torn, [])

def numberDoc (negative : Bool) (s : List Symbol) : Doc × List Symbol :=
  orTorn ((scanNumber negative s).map fun (n, rest) => (.number n, rest))

/-- what has to follow an item: a separator before a further one, or the closing bracket -/
inductive Follow
  | further (rest : List Symbol)
  | closed (rest : List Symbol)
  | broken

/-- what follows an item of a container that ends with `close` -/
def follow (close : Char) (s : List Symbol) : Follow :=
  match skipSpace s with
  | some c :: rest => if c = ',' then .further rest else if c = close then .closed rest else .broken
  | _ => .broken

mutual

/-- the document that symbols begin with, by at most `fuel` nested or neighbouring steps -/
def scanDoc : Nat → List Symbol → Doc × List Symbol
  | 0, _ => (.torn, [])
  | fuel + 1, s =>
    match skipSpace s with
    | some 'n' :: rest => orTorn ((scanWord ['u', 'l', 'l'] rest).map (.null, ·))
    | some 't' :: rest => orTorn ((scanWord ['r', 'u', 'e'] rest).map (.bool true, ·))
    | some 'f' :: rest => orTorn ((scanWord ['a', 'l', 's', 'e'] rest).map (.bool false, ·))
    | some '"' :: rest => orTorn ((scanString rest).map fun (t, rest) => (.string t, rest))
    | some '-' :: rest => numberDoc true rest
    | some '[' :: rest =>
      match skipSpace rest with
      | some ']' :: rest => (.array [], rest)
      | rest =>
        let (items, rest) := scanItems fuel rest
        (.array items, rest)
    | some '\x7b' :: rest =>
      match skipSpace rest with
      | some '\x7d' :: rest => (.object [], rest)
      | rest =>
        let (members, rest) := scanMembers fuel rest
        (.object members, rest)
    | some c :: rest =>
      if Decimal.isDigit c then numberDoc false (some c :: rest) else (.torn, [])
    | _ => (.torn, [])

/-- the items of an array from one of them on -/
def scanItems : Nat → List Symbol → List Doc × List Symbol
  | 0, _ => ([.torn], [])
  | fuel + 1, s =>
    let (d, rest) := scanDoc fuel s
    match follow ']' rest with
    | .further rest =>
      let (ds, rest) := scanItems fuel rest
      (d :: ds, rest)
    | .closed rest => ([d], rest)
    | .broken => ([d, .torn], [])

/-- the members of an object from one of them on -/
def scanMembers : Nat → List Symbol → List (Option String × Doc) × List Symbol
  | 0, _ => ([(none, .torn)], [])
  | fuel + 1, s =>
    match skipSpace s with
    | some '"' :: rest =>
      match scanString rest with
      | none => ([(none, .torn)], [])
      | some (key, rest) =>
        match skipSpace rest with
        | some ':' :: rest =>
          let (d, rest) := scanDoc fuel rest
          match follow '\x7d' rest with
          | .further rest =>
            let (ms, rest) := scanMembers fuel rest
            ((key, d) :: ms, rest)
          | .closed rest => ([(key, d)], rest)
          | .broken => ([(key, d), (none, .torn)], [])
        -- without its colon a key has a torn value
        | _ => ([(key, .torn)], [])
    | _ => ([(none, .torn)], [])

end

/-- the document that symbols begin with, and the symbols after it -/
def Doc.scan (s : List Symbol) : Doc × List Symbol := scanDoc (2 * s.length + 2) s

end DeviceHub.Json
