/-!
# Blank characters

* `isBlank`      the characters of the Unicode property `White_Space`;
* `trim`         a text without the blank characters at its two ends;
* `Text.isBlank` the texts of which nothing is left after trimming.

The zero-width space U+200B, the byte order mark U+FEFF and U+001F are not blank.
-/

namespace DeviceHub.Text

/-- The code points of `White_Space`, as closed ranges in increasing order. -/
def blankRanges : List (Nat × Nat) :=
  [(0x0009, 0x000D), (0x0020, 0x0020), (0x0085, 0x0085), (0x00A0, 0x00A0), (0x1680, 0x1680),
    (0x2000, 0x200A), (0x2028, 0x2029), (0x202F, 0x202F), (0x205F, 0x205F), (0x3000, 0x3000)]

/-- whether a character is in `White_Space` -/
def isBlankChar (c : Char) : Bool :=
  blankRanges.any fun r => r.1 ≤ c.toNat && c.toNat ≤ r.2

def trimStartChars (cs : List Char) : List Char := cs.dropWhile isBlankChar

def trimEndChars (cs : List Char) : List Char := (cs.reverse.dropWhile isBlankChar).reverse

def trimChars (cs : List Char) : List Char := trimEndChars (trimStartChars cs)

def trim (s : String) : String := String.ofList (trimChars s.toList)

/-- A text is blank when nothing is left of it after trimming. -/
def isBlank (s : String) : Bool := (trimChars s.toList).isEmpty

@[simp] theorem trimChars_nil : trimChars [] = [] := rfl

example : trim "\u00a0 a b\t\n" = "a b" := by decide
example : isBlank "\u2009\u3000" = true := by decide
example : isBlank "\u200b" = false := by decide

end DeviceHub.Text
