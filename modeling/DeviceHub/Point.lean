import DeviceHub.Json.Record
import DeviceHub.Sorted

/-!
# Points of a time series

* `Point`       a measurement with tags, fields and a time in milliseconds;
* `Point.tag`, `Point.field`  the point with one more tag or field;
* `Point.write` its JSON form;
* `SinkError`   why a sink refuses a point.
-/

namespace DeviceHub

/-- the value of a field -/
inductive FieldValue
  | float (x : Float)
  | int (i : Int64)
  | text (s : String)
  | bool (b : Bool)

/-- a point of a time series; tags and fields are in key order -/
structure Point where
  measurement : String
  tags : List (String × String) := []
  fields : List (String × FieldValue) := []
  ts : Int64

open Json in
def FieldValue.write : FieldValue → Doc
  | .float x => .float x
  | .int i => .int i.toInt
  | .text s => .text s
  | .bool b => .bool b

namespace Point

/-- a point without tags and fields -/
def new (measurement : String) (ts : Int64) : Point := { measurement := measurement, ts := ts }

/-- the point with a tag, instead of an earlier one of its key -/
def tag (p : Point) (key value : String) : Point :=
  { p with tags := Sorted.insert key value p.tags }

/-- the point with a field, instead of an earlier one of its key -/
def field (p : Point) (key : String) (value : FieldValue) : Point :=
  { p with fields := Sorted.insert key value p.fields }

/-- the point with a tag if there is one that is not empty -/
def tagUnlessEmpty (p : Point) (key : String) (value : Option String) : Point :=
  match value with
  | some v => if v.isEmpty then p else p.tag key v
  | none => p

/-- the point with a field if there is a value -/
def fieldIfSome (p : Point) (key : String) (value : Option FieldValue) : Point :=
  match value with
  | some v => p.field key v
  | none => p

def tagValue? (p : Point) (key : String) : Option String := Sorted.find? key p.tags

def fieldValue? (p : Point) (key : String) : Option FieldValue := Sorted.find? key p.fields

open Json in
def write (p : Point) : Doc :=
  .record [
    ("measurement", .text p.measurement),
    ("tags", .record (p.tags.map fun t => (t.1, .text t.2))),
    ("fields", .record (p.fields.map fun f => (f.1, f.2.write))),
    ("timestamp_millis", .int p.ts.toInt)]

end Point

/-- why a sink refuses a point -/
inductive SinkError
  | queueFull
  | closed
  | write (msg : String)
deriving DecidableEq

def SinkError.message : SinkError → String
  | .queueFull => "write queue is full"
  | .closed => "sink is closed"
  | .write msg => "write failed: " ++ msg

end DeviceHub
