import DeviceHub.Json.Codec

/-!
# Records as JSON

* `Field`        a named part of a record: how it is read into the record and written from it;
* `Record`       the fields of a record in their order, and the record in which all are missing;
* `Record.codec` the codec of a record.

A record is written as an object of its fields in order.  It is read from such an object, in any
order and among other keys, whose values are only checked for being JSON; or from an array of its
fields in order.  No field may occur twice.
-/

namespace DeviceHub.Json

/-- where a field may be missing -/
inductive Missing
  | nowhere
  | inObjects
  | anywhere
deriving DecidableEq, Repr

/-- a named part of a record; a part that is written as `none` is left out -/
structure Field (σ : Type) where
  name : String
  missing : Missing
  read : Nat → Doc → σ → Except Fault σ
  write : σ → Option Doc

/-- the fields of a record, and the record that takes the place of what is missing -/
structure Record (σ : Type) where
  base : σ
  fields : List (Field σ)

namespace Field

/-- a field through a codec that may be missing, and is left out where `absent` says so -/
def omitted {σ α : Type} (name : String) (c : Codec α) (get : σ → α) (set : α → σ → σ)
    (absent : α → Bool) : Field σ where
  name := name
  missing := .anywhere
  read room d v := (c.read room d).map fun a => set a v
  write v := if absent (get v) then none else some (c.write (get v))

/-- a field through a codec that may be missing and is always written -/
def plain {σ α : Type} (name : String) (c : Codec α) (get : σ → α) (set : α → σ → σ) : Field σ :=
  omitted name c get set fun _ => false

/-- the field, missing only where `m` says so -/
def withMissing {σ : Type} (f : Field σ) (m : Missing) : Field σ := { f with missing := m }

/-- the field, which has to be given -/
def required {σ : Type} (f : Field σ) : Field σ := f.withMissing .nowhere

end Field

namespace Record

/-- the members of an object taken over in their order; `seen` are the fields given so far -/
def readMembers {σ : Type} (fields : List (Field σ)) (room : Nat) :
    σ → List String → List (Option String × Doc) → Except Fault (σ × List String)
  | v, seen, [] => .ok (v, seen)
  | _, _, (none, _) :: _ => .error .malformed
  | v, seen, (some key, d) :: rest =>
    match fields.find? fun f => f.name = key with
    -- the value under a key of no field has to be JSON all the same
    | none => if d.sound then readMembers fields room v seen rest else .error .malformed
    | some f =>
      if key ∈ seen then .error .mismatch
      else
        match f.read room d v with
        | .error e => .error e
        | .ok v => readMembers fields room v (key :: seen) rest

/-- the items of an array taken over field by field -/
def readItems {σ : Type} (room : Nat) : List (Field σ) → σ → List Doc → Except Fault σ
  | [], v, [] => .ok v
  | [], _, _ :: _ => .error .malformed
  | f :: fs, v, [] => if (f :: fs).all (·.missing = .anywhere) then .ok v else .error .mismatch
  | f :: fs, v, d :: ds =>
    match f.read room d v with
    | .error e => .error e
    | .ok v => readItems room fs v ds

/-- the members of a record that are not left out -/
def members {σ : Type} (r : Record σ) (v : σ) : List (String × Doc) :=
  r.fields.filterMap fun f => (f.write v).map fun d => (f.name, d)

def read {σ : Type} (r : Record σ) (room : Nat) : Doc → Except Fault σ
  | .object ms => do
    let room ← enter room
    let (v, seen) ← readMembers r.fields room r.base [] ms
    if r.fields.all fun f => f.missing ≠ .nowhere || f.name ∈ seen then .ok v
    else .error .mismatch
  | .array items => do
    let room ← enter room
    readItems room r.fields r.base items
  | d => .error d.refusal

/-- records as objects or arrays of their fields -/
def codec {σ : Type} (r : Record σ) : Codec σ where
  read := r.read
  write v := .record (r.members v)

end Record

end DeviceHub.Json
