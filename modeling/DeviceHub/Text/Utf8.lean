/-!
# Octets as text

* `decode`  reads octets as UTF-8: a character for every well-formed sequence and `none` for every
            maximal piece of an ill-formed one;
* `text?`   the text of octets that hold no ill-formed piece;
* `lossy`   the text in which every ill-formed piece is U+FFFD;
* `encode`  the octets of a text.

The reader is a machine over single octets.  Between two sequences it waits for a leading octet;
inside one it knows how many octets are missing and in which range the next has to lie, which is
where overlong forms, surrogates and code points above U+10FFFF are refused.
-/

namespace DeviceHub.Text.Utf8

/-- a character, or an ill-formed piece of octets -/
abbrev Symbol := Option Char

/-- what the reader waits for -/
inductive Wait
  | lead
  | more (missing : Nat) (value : Nat) (low high : UInt8)

/-- the wait after a leading octet, and what the octet yields by itself -/
def onLead (b : UInt8) : Wait × List Symbol :=
  let v := b.toNat
  if b < 0x80 then (.lead, [some (Char.ofNat v)])
  else if 0xC2 ≤ b ∧ b ≤ 0xDF then (.more 1 (v - 0xC0) 0x80 0xBF, [])
  else if b = 0xE0 then (.more 2 0 0xA0 0xBF, [])
  else if b = 0xED then (.more 2 (v - 0xE0) 0x80 0x9F, [])
  else if 0xE1 ≤ b ∧ b ≤ 0xEF then (.more 2 (v - 0xE0) 0x80 0xBF, [])
  else if b = 0xF0 then (.more 3 0 0x90 0xBF, [])
  else if 0xF1 ≤ b ∧ b ≤ 0xF3 then (.more 3 (v - 0xF0) 0x80 0xBF, [])
  else if b = 0xF4 then (.more 3 4 0x80 0x8F, [])
  else (.lead, [none])

/-- one octet: an octet that cannot continue a sequence ends it as ill-formed and leads anew -/
def step (w : Wait) (b : UInt8) : Wait × List Symbol :=
  match w with
  | .lead => onLead b
  | .more missing value low high =>
    if low ≤ b ∧ b ≤ high then
      let value := value * 64 + (b.toNat - 0x80)
      match missing with
      | 0 | 1 => (.lead, [some (Char.ofNat value)])
      | n + 1 => (.more n value 0x80 0xBF, [])
    else
      let (w, out) := onLead b
      (w, none :: out)

/-- the symbols read from a wait on; a sequence that the end cuts off is ill-formed -/
def run : Wait → List UInt8 → List Symbol
  | .lead, [] => []
  | .more .., [] => [none]
  | w, b :: rest =>
    let (w, out) := step w b
    out ++ run w rest

/-- the characters of octets, with `none` for each maximal ill-formed piece -/
def decode (octets : List UInt8) : List Symbol := run .lead octets

/-- what stands in a text for an ill-formed piece -/
def replacement : Char := '\ufffd'

def lossy (octets : List UInt8) : String :=
  String.ofList ((decode octets).map (·.getD replacement))

/-- the text of symbols, when all of them are characters -/
def textOf? (symbols : List Symbol) : Option String :=
  (symbols.mapM id).map String.ofList

/-- the text of octets, when they are well-formed -/
def text? (octets : List UInt8) : Option String := textOf? (decode octets)

def symbols (s : String) : List Symbol := s.toList.map some

def encode (s : String) : List UInt8 := s.toList.flatMap String.utf8EncodeChar

example : decode [0xC3, 0xA9, 0xE1, 0x80, 0x41] = [some 'é', none, some 'A'] := by decide
example : decode [0xED, 0xA0, 0x80] = [none, none, none] := by decide
example : decode [0xF0, 0x9F, 0x98, 0x80] = [some '😀'] := by decide

end DeviceHub.Text.Utf8
