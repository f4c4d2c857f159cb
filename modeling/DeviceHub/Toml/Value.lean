import DeviceHub.Sorted

/-!
# TOML values

* `Value`       a value of a TOML document;
* `Origin`      how a table came to be, which decides who may add to it;
* `descend`     entries changed at the end of a path of keys;
* `assign`, `openTable`, `openElement`  what a line of a document does to the entries so far.

A table is written once.  A header may reopen only a table that exists because a longer header named
it, and dotted keys only tables that dotted keys made.
-/

namespace DeviceHub.Toml

/-- how a table came to be -/
inductive Origin
  /-- written in braces -/
  | closed
  /-- named by a header, or the document itself -/
  | header
  /-- on the way to a table that a header names -/
  | implied
  /-- on the way to a value that a dotted key names -/
  | dotted
deriving DecidableEq

/-- a value of a document; `tables` are the elements that repeated headers in double brackets make -/
inductive Value where
  | text (s : String)
  | int (i : Int)
  | float (x : Float)
  | bool (b : Bool)
  | date (s : String)
  | array (items : List Value)
  | table (origin : Origin) (entries : List (String × Value))
  | tables (elements : List (List (String × Value)))
deriving Inhabited

/-- the entries of a table, in key order -/
abbrev Entries := List (String × Value)

/-- a list with its last element changed -/
def updateLast {α : Type} (f : α → Option α) : List α → Option (List α)
  | [] => none
  | [a] => (f a).map ([·])
  | a :: b :: rest => (updateLast f (b :: rest)).map (a :: ·)

/-- entries changed by `f` at the end of a path, which is told the origin of the table there -/
def descend (dotted : Bool) (f : Origin → Entries → Option Entries) :
    List String → Origin → Entries → Option Entries
  | [], origin, es => f origin es
  | key :: path, _, es =>
    match Sorted.find? key es with
    -- a table that is missing is made
    | none => do
      let origin := if dotted then .dotted else .implied
      let sub ← descend dotted f path origin []
      return Sorted.insert key (.table origin sub) es
    | some (.table origin sub) =>
      if origin = .closed ∨ (dotted ∧ origin = .header) then none
      else do
        let sub ← descend dotted f path origin sub
        return Sorted.insert key (.table origin sub) es
    -- of the elements of an array of tables the last one is meant
    | some (.tables elements) => do
      let elements ← updateLast (descend dotted f path .header) elements
      return Sorted.insert key (.tables elements) es
    | some _ => none

/-- entries with a value for a new key -/
def assign (path : List String) (key : String) (v : Value) (es : Entries) : Option Entries :=
  descend true (fun origin sub =>
    -- a dotted path has to end in a table that dotted keys made
    if (!path.isEmpty && origin ≠ .dotted) || (Sorted.find? key sub).isSome then none
    else some (Sorted.insert key v sub)) path .header es

/-- entries after a header that names a table -/
def openTable (path : List String) (key : String) (es : Entries) : Option Entries :=
  descend false (fun _ sub =>
    match Sorted.find? key sub with
    | none => some (Sorted.insert key (.table .header []) sub)
    | some (.table .implied inner) => some (Sorted.insert key (.table .header inner) sub)
    | some _ => none) path .header es

/-- entries after a header in double brackets, which adds an element to an array of tables -/
def openElement (path : List String) (key : String) (es : Entries) : Option Entries :=
  descend false (fun _ sub =>
    match Sorted.find? key sub with
    | none => some (Sorted.insert key (.tables [[]]) sub)
    | some (.tables elements) => some (Sorted.insert key (.tables (elements ++ [[]])) sub)
    | some _ => none) path .header es

/-- entries with a value for a new key inside the table that the last header named -/
def assignIn (section_ path : List String) (key : String) (v : Value) (es : Entries) :
    Option Entries :=
  descend false (fun _ sub => assign path key v sub) section_ .header es

end DeviceHub.Toml
