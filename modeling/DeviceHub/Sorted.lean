/-!
# Entries in key order

* `Sorted.insert`  an entry put into its place, instead of one with the same key;
* `Sorted.find?`   the value of a key;
* `Sorted.erase`   the entries without those of a key;
* `Sorted.ofList`  entries in any order, where the last one of a key counts.

Keys are compared by code points, which orders texts as their UTF-8 octets do.
-/

namespace DeviceHub.Sorted

variable {α : Type}

/-- the entries with a value for a key, in the place of an earlier one -/
def insert (key : String) (value : α) : List (String × α) → List (String × α)
  | [] => [(key, value)]
  | (k, v) :: rest =>
    if key < k then (key, value) :: (k, v) :: rest
    else if key = k then (key, value) :: rest
    else (k, v) :: insert key value rest

def find? (key : String) (entries : List (String × α)) : Option α :=
  (entries.find? fun e => e.1 = key).map (·.2)

def erase (key : String) (entries : List (String × α)) : List (String × α) :=
  entries.filter fun e => e.1 ≠ key

/-- the entries in key order, the last one of each key -/
def ofList (entries : List (String × α)) : List (String × α) :=
  entries.foldl (fun m e => insert e.1 e.2 m) []

/-- keys that increase strictly -/
def IsSorted (entries : List (String × α)) : Prop := entries.Pairwise fun a b => a.1 < b.1

@[simp] theorem find?_nil (key : String) : find? key ([] : List (String × α)) = none := rfl

theorem find?_cons (key : String) (e : String × α) (rest : List (String × α)) :
    find? key (e :: rest) = if e.1 = key then some e.2 else find? key rest := by
  by_cases h : e.1 = key <;> simp [find?, h]

end DeviceHub.Sorted
