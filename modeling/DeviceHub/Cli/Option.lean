/-!
# Options on a command line

* `Cli.Spec`      an option: its letter, its word, and whether it takes a value;
* `Cli.Found`     an option that was found, with its value;
* `Cli.readArg?`  the options in one argument, whose value may be the argument after it;
* `Cli.isOption`  whether an argument holds options: it starts with a hyphen and is longer.

A value stands behind the letter, maybe after an equals sign, behind the word after an equals sign,
or in the next argument, which then must not hold options itself.
-/

namespace DeviceHub.Cli

/-- an option; `refusesEmpty` says that its value must not be empty -/
structure Spec where
  letter : Option Char
  word : String
  takesValue : Bool
  refusesEmpty : Bool := false
deriving DecidableEq

/-- an option that was found, with its value; one that takes none has an empty value -/
structure Found where
  word : String
  value : String
deriving DecidableEq

/-- Whether an argument holds options.  A hyphen by itself is an ordinary word. -/
def isOption (arg : String) : Bool := arg.startsWith "-" && arg ≠ "-"

/-- The argument after which all others are ordinary words. -/
def endOfOptions : String := "--"

/-- an option with a value, if it may have that value -/
def Spec.withValue? (s : Spec) (value : String) : Option Found :=
  if s.refusesEmpty && value = "" then none else some ⟨s.word, value⟩

/-- the options of an argument, and whether the next argument was taken as a value -/
abbrev Reading := List Found × Bool

/-- an option whose value is the next argument -/
def Spec.withNext? (s : Spec) (next : Option String) : Option Reading := do
  let value ← next
  if isOption value then none else return ([← s.withValue? value], true)

/-- the characters after an equals sign, if there is one -/
def afterEquals : List Char → List Char
  | '=' :: cs => cs
  | cs => cs

/-- the options of letters behind one hyphen -/
def readLetters? (specs : List Spec) (next : Option String) : List Char → Option Reading
  | [] => some ([], false)
  | c :: cs => do
    let s ← specs.find? fun s => s.letter = some c
    if s.takesValue then
      if cs.isEmpty then s.withNext? next
      else return ([← s.withValue? (String.ofList (afterEquals cs))], false)
    else
      let (found, taken) ← readLetters? specs next cs
      return (⟨s.word, ""⟩ :: found, taken)

/-- the option of a word behind two hyphens -/
def readWord? (specs : List Spec) (next : Option String) (cs : List Char) : Option Reading := do
  let word := String.ofList (cs.takeWhile (· ≠ '='))
  let s ← specs.find? fun s => s.word = word
  match s.takesValue, cs.dropWhile (· ≠ '=') with
  | true, '=' :: value => return ([← s.withValue? (String.ofList value)], false)
  | true, _ => s.withNext? next
  | false, [] => return ([⟨s.word, ""⟩], false)
  | false, _ => none

def readArg? (specs : List Spec) (arg : String) (next : Option String) : Option Reading :=
  match arg.toList with
  | '-' :: '-' :: cs => readWord? specs next cs
  | '-' :: cs => readLetters? specs next cs
  | _ => none

end DeviceHub.Cli
