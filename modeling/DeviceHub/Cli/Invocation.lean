import DeviceHub.Cli.Option
import DeviceHub.Decimal.Digits

/-!
# What a command line asks for

* `Cli.Action`      what the program is to do;
* `Cli.Invocation`  an action with the configuration file and the verbosity;
* `Cli.Request.ofArgs`  what the arguments ask for, or that they are not in order.

The name of the action is the first word.  Options of the program may stand on either side of it, each
once per side; of two configuration files the one behind the action counts.
-/

namespace DeviceHub.Cli

/-- what the program is to do -/
inductive Action
  | serve (addr : Option String)
  | send (device kind : String) (params : Option String) (timeoutMs : UInt64)
  | showConfig
deriving DecidableEq

/-- an action, the configuration file and whether to log more -/
structure Invocation where
  action : Action
  config : Option String := none
  verbose : Bool := false
deriving DecidableEq

/-- what arguments ask for -/
inductive Request
  | run (i : Invocation)
  | version
  | usage
deriving DecidableEq

/-- The options on both sides of the action. -/
def commonSpecs : List Spec :=
  [⟨some 'c', "config", true, true⟩, ⟨some 'v', "verbose", false, false⟩]

/-- The options in front of the action. -/
def programSpecs : List Spec := commonSpecs ++ [⟨some 'V', "version", false, false⟩]

def serveSpecs : List Spec := commonSpecs ++ [⟨none, "http-addr", true, false⟩]

def sendSpecs : List Spec :=
  commonSpecs ++ [⟨some 'p', "params", true, false⟩, ⟨some 't', "timeout-ms", true, false⟩]

def value? (found : List Found) (word : String) : Option String :=
  (found.find? fun f => f.word = word).map (·.value)

/-- options with further ones, none of which may occur twice -/
def addFound? : List Found → List Found → Option (List Found)
  | found, [] => some found
  | found, f :: fs =>
    if (value? found f.word).isSome then none else addFound? (found ++ [f]) fs

/-- what stands in front of the action -/
inductive Front
  /-- arguments that are not in order, or no action -/
  | broken
  /-- an option that asks for the version -/
  | version
  /-- options, the name of the action and the arguments behind it -/
  | action (found : List Found) (name : String) (rest : List String)

/-- options in front of the action taken over in their order: `none` when one of them is wrong, and
`some none` when one asks for the version -/
def addFront? : List Found → List Found → Option (Option (List Found))
  | found, [] => some (some found)
  | found, f :: fs =>
    if f.word = "version" then some none
    else if (value? found f.word).isSome then none
    else addFront? (found ++ [f]) fs

/-- what stands in front of the action, and the arguments behind its name -/
def readFront (found : List Found) : List String → Front
  | [] => .broken
  | arg :: rest =>
    if arg = endOfOptions then .broken
    else if isOption arg then
      match readArg? programSpecs arg rest.head? with
      | none => .broken
      | some (fs, taken) =>
        match addFront? found fs with
        | none => .broken
        | some none => .version
        | some (some found) =>
          match rest, taken with
          | _ :: rest, true => readFront found rest
          | rest, _ => readFront found rest
    else .action found arg rest

/-- the options and words behind the name of the action -/
def readBack? (specs : List Spec) (found : List Found) (words : List String) :
    List String → Option (List Found × List String)
  | [] => some (found, words)
  | arg :: rest =>
    if arg = endOfOptions then some (found, words ++ rest)
    else if isOption arg then do
      let (fs, taken) ← readArg? specs arg rest.head?
      let found ← addFound? found fs
      match rest, taken with
      | _ :: rest, true => readBack? specs found words rest
      | rest, _ => readBack? specs found words rest
    else readBack? specs found (words ++ [arg]) rest

/-- The time limit of a send that gives none, in milliseconds. -/
def defaultTimeoutMs : UInt64 := 10000

def number? (s : String) : Option UInt64 := do
  let n ← Decimal.unsigned? s.toList
  if n < 0x10000000000000000 then some (UInt64.ofNat n) else none

/-- the options that an action knows, and the action of options and words -/
def actionOf? (name : String) :
    Option (List Spec × (List Found → List String → Option Action)) :=
  if name = "serve" then
    some (serveSpecs, fun found words =>
      if words.isEmpty then some (.serve (value? found "http-addr")) else none)
  else if name = "send" then
    some (sendSpecs, fun found words => do
      let timeoutMs ←
        match value? found "timeout-ms" with
        | some v => number? v
        | none => some defaultTimeoutMs
      match words with
      | [device, kind] => some (.send device kind (value? found "params") timeoutMs)
      | _ => none)
  else if name = "config" then
    some (commonSpecs, fun _ words => if words.isEmpty then some .showConfig else none)
  else none

/-- the invocation of an action's name with what stands in front of it and behind it -/
def invocation? (front : List Found) (name : String) (rest : List String) : Option Invocation := do
  let (specs, build) ← actionOf? name
  let (back, words) ← readBack? specs [] [] rest
  let action ← build back words
  -- of two configuration files the one behind the action counts
  return {
    action := action
    config := value? back "config" <|> value? front "config"
    verbose := (value? (front ++ back) "verbose").isSome }

def Request.ofArgs (args : List String) : Request :=
  match readFront [] args with
  | .broken => .usage
  | .version => .version
  | .action front name rest =>
    match invocation? front name rest with
    | some i => .run i
    | none => .usage

end DeviceHub.Cli
