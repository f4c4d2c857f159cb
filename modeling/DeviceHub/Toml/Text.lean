import DeviceHub.Json.Doc

/-!
# TOML strings

* `scanText`    a string in one of its four forms, and the characters after it;
* `renderText`  a string in the first form that fits it.

A basic string stands in double quotes and has escapes; a literal string stands in single quotes and
has none.  Either may stand in tripled quotes and then hold line breaks and up to two of its quotes
in a row.
-/

namespace DeviceHub.Toml

/-! ## Reading -/

/-- the character whose code point is given in hexadecimal digits -/
def codePoint? (ds : List Char) : Option Char := do
  let ns ← ds.mapM Hex.value?
  let n := ns.foldl (fun n d => n * 16 + d) 0
  if n.isValidChar then some (Char.ofNat n) else none

def shortEscape? : Char → Option Char
  | 'b' => some '\x08'
  | 't' => some '\t'
  | 'n' => some '\n'
  | 'f' => some '\x0c'
  | 'r' => some '\r'
  | '"' => some '"'
  | '\\' => some '\\'
  | _ => none

/-- whether a character may stand in a string or comment by itself: a tab, or no control character -/
def isPlain (c : Char) : Bool := c = '\t' || (0x20 ≤ c.toNat && c ≠ '\x7f')

/-- spaces and tabs -/
def isGap (c : Char) : Bool := c = ' ' || c = '\t'

/-- whether a line ends here, after spaces and tabs -/
def endsLine (cs : List Char) : Bool :=
  match cs.dropWhile isGap with
  | '\n' :: _ | '\r' :: '\n' :: _ => true
  | _ => false

/-- the rest of a basic string on one line -/
def scanBasic : List Char → Option (List Char × List Char)
  | [] => none
  | '"' :: rest => some ([], rest)
  | '\\' :: 'u' :: a :: b :: c :: d :: rest => do
    let x ← codePoint? [a, b, c, d]
    let (cs, rest) ← scanBasic rest
    return (x :: cs, rest)
  | '\\' :: 'U' :: a :: b :: c :: d :: e :: f :: g :: h :: rest => do
    let x ← codePoint? [a, b, c, d, e, f, g, h]
    let (cs, rest) ← scanBasic rest
    return (x :: cs, rest)
  | '\\' :: e :: rest => do
    let x ← shortEscape? e
    let (cs, rest) ← scanBasic rest
    return (x :: cs, rest)
  | '\\' :: [] => none
  | c :: rest =>
    if isPlain c then do
      let (cs, rest) ← scanBasic rest
      return (c :: cs, rest)
    else none

/-- the rest of a basic string in tripled quotes; `skipping` is between a backslash at the end of a
line and the next visible character -/
def scanBasicLines (skipping : Bool) : List Char → Option (List Char × List Char)
  | [] => none
  -- up to two quotes may stand in front of the closing ones
  | '"' :: '"' :: '"' :: '"' :: '"' :: rest => some (['"', '"'], rest)
  | '"' :: '"' :: '"' :: '"' :: rest => some (['"'], rest)
  | '"' :: '"' :: '"' :: rest => some ([], rest)
  | '\\' :: 'u' :: a :: b :: c :: d :: rest => do
    let x ← codePoint? [a, b, c, d]
    let (cs, rest) ← scanBasicLines false rest
    return (x :: cs, rest)
  | '\\' :: 'U' :: a :: b :: c :: d :: e :: f :: g :: h :: rest => do
    let x ← codePoint? [a, b, c, d, e, f, g, h]
    let (cs, rest) ← scanBasicLines false rest
    return (x :: cs, rest)
  | '\\' :: rest =>
    if endsLine rest then scanBasicLines true rest
    else
      match rest with
      | e :: rest => do
        let x ← shortEscape? e
        let (cs, rest) ← scanBasicLines false rest
        return (x :: cs, rest)
      | [] => none
  | '\r' :: '\n' :: rest =>
    if skipping then scanBasicLines true rest
    else (scanBasicLines false rest).map fun (cs, rest) => ('\n' :: cs, rest)
  | c :: rest =>
    if skipping && (isGap c || c = '\n') then scanBasicLines true rest
    else if isPlain c || c = '\n' then
      (scanBasicLines false rest).map fun (cs, rest) => (c :: cs, rest)
    else none

def scanLiteral : List Char → Option (List Char × List Char)
  | [] => none
  | '\'' :: rest => some ([], rest)
  | c :: rest =>
    if isPlain c then (scanLiteral rest).map fun (cs, rest) => (c :: cs, rest) else none

def scanLiteralLines : List Char → Option (List Char × List Char)
  | [] => none
  | '\'' :: '\'' :: '\'' :: '\'' :: '\'' :: rest => some (['\'', '\''], rest)
  | '\'' :: '\'' :: '\'' :: '\'' :: rest => some (['\''], rest)
  | '\'' :: '\'' :: '\'' :: rest => some ([], rest)
  | '\r' :: '\n' :: rest => (scanLiteralLines rest).map fun (cs, rest) => ('\n' :: cs, rest)
  | c :: rest =>
    if isPlain c || c = '\n' then
      (scanLiteralLines rest).map fun (cs, rest) => (c :: cs, rest)
    else none

/-- the characters after a line break that directly follows tripled quotes -/
def dropBreak : List Char → List Char
  | '\n' :: rest => rest
  | '\r' :: '\n' :: rest => rest
  | rest => rest

/-- a string on one line, from its opening quote on -/
def scanLineText : List Char → Option (List Char × List Char)
  | '"' :: rest => scanBasic rest
  | '\'' :: rest => scanLiteral rest
  | _ => none

/-- a string, from its opening quote on -/
def scanText : List Char → Option (List Char × List Char)
  | '"' :: '"' :: '"' :: rest => scanBasicLines false (dropBreak rest)
  | '\'' :: '\'' :: '\'' :: rest => scanLiteralLines (dropBreak rest)
  | cs => scanLineText cs

/-! ## Writing -/

/-- the characters that no form can hold as they are -/
def needsEscape (c : Char) : Bool :=
  (c.toNat < 0x20 && c ≠ '\t' && c ≠ '\n') || c = '\x7f'

def longestRun (c : Char) : Nat → List Char → Nat
  | n, [] => n
  | n, d :: rest => if d = c then longestRun c (n + 1) rest else max n (longestRun c 0 rest)

/-- the four forms of strings -/
inductive Form
  | basic
  | literal
  | basicLines
  | literalLines
deriving DecidableEq

/-- the first form that fits a string -/
def formOf (cs : List Char) : Form :=
  let escapes := cs.any needsEscape
  let breaks := '\n' ∈ cs
  if !escapes && '\\' ∉ cs && '"' ∉ cs && !breaks then .basic
  else if !escapes && '\'' ∉ cs && !breaks then .literal
  else if !escapes && '\\' ∉ cs && longestRun '"' 0 cs ≤ 2 then .basicLines
  else if !escapes && longestRun '\'' 0 cs ≤ 2 then .literalLines
  else if breaks then .basicLines
  else .basic

def escapeBasic (c : Char) : List Char :=
  if c = '\x08' then ['\\', 'b']
  else if c = '\t' then ['\\', 't']
  else if c = '\x0c' then ['\\', 'f']
  else if c = '\r' then ['\\', 'r']
  else if c = '\n' then ['\\', 'n']
  else if c = '\\' then ['\\', '\\']
  else if c = '"' then ['\\', '"']
  else if needsEscape c then
    ['\\', 'u', '0', '0', Hex.upper (c.toNat / 16), Hex.upper (c.toNat % 16)]
  else [c]

/-- the inside of tripled double quotes, after a number of quotes written as they are -/
def escapeLines : Nat → List Char → List Char
  | _, [] => []
  | quotes, c :: rest =>
    if c = '"' then
      -- of three quotes in a row the third one is escaped
      if quotes < 2 then '"' :: escapeLines (quotes + 1) rest
      else '\\' :: '"' :: escapeLines 0 rest
    else (if c = '\n' then [c] else escapeBasic c) ++ escapeLines 0 rest

/-- the line break that follows tripled quotes when there is another one in the string -/
def leadingBreak (cs : List Char) : List Char := if '\n' ∈ cs then ['\n'] else []

def renderIn (cs : List Char) : Form → List Char
  | .basic => '"' :: (cs.flatMap escapeBasic ++ ['"'])
  | .literal => '\'' :: (cs ++ ['\''])
  | .basicLines =>
    ['"', '"', '"'] ++ leadingBreak cs ++ escapeLines 0 cs ++ ['"', '"', '"']
  | .literalLines =>
    ['\'', '\'', '\''] ++ leadingBreak cs ++ cs ++ ['\'', '\'', '\'']

def renderText (s : String) : List Char := renderIn s.toList (formOf s.toList)

end DeviceHub.Toml
