import DeviceHub.Param
import DeviceHub.Proofs.Json.RoundTrip
import DeviceHub.Proofs.Sorted

/-!
# Parameter values are read back

* `Param.Exact`            a value holds no double, and its maps are in key order;
* `Param.Exact.written`    its document has a written form;
* `Param.Exact.readsBack`  it is read back from its document when there is room for it, and refused
                           otherwise;
* `Params.restores`        named values are read back.

Doubles are left out because their digits are read to within a few units of the last place only.
-/

namespace DeviceHub

open Json

namespace Param

/-- A value holds no double, and its maps are in key order. -/
inductive Exact : Param → Prop
  | null : Exact .null
  | bool (b : Bool) : Exact (.bool b)
  | int (i : Int64) : Exact (.int i)
  | text (s : String) : Exact (.text s)
  | list {items : List Param} (h : ∀ p ∈ items, Exact p) : Exact (.list items)
  | map {entries : Params} (hsorted : Sorted.IsSorted entries) (h : ∀ e ∈ entries, Exact e.2) :
      Exact (.map entries)

theorem writeItems_eq (ps : List Param) : writeItems ps = ps.map write := by
  induction ps with
  | nil => rfl
  | cons p ps ih => rw [writeItems, ih, List.map_cons]

theorem writeEntries_eq (es : Params) : writeEntries es = es.map fun e => (some e.1, write e.2) := by
  induction es with
  | nil => rfl
  | cons e es ih => rw [writeEntries, ih, List.map_cons]

theorem Exact.written {p : Param} (h : p.Exact) : (write p).Written := by
  induction h with
  | null =>
    rw [write]
    exact .null
  | bool b =>
    rw [write]
    exact .bool b
  | int i =>
    rw [write]
    exact .number (Numeral.spelled_ofInt _)
  | text s =>
    rw [write]
    exact .string s
  | list h ih =>
    rw [write, writeItems_eq]
    refine .array fun d hd => ?_
    obtain ⟨p, hp, rfl⟩ := List.mem_map.mp hd
    exact ih p hp
  | map hsorted h ih =>
    rw [write, writeEntries_eq]
    refine .object (fun m hm => ?_) (fun m hm => ?_)
    · obtain ⟨e, he, rfl⟩ := List.mem_map.mp hm
      rfl
    · obtain ⟨e, he, rfl⟩ := List.mem_map.mp hm
      exact ih e he

/-- A value is read back from its document when there is room for it, and refused otherwise. -/
def ReadsBack (p : Param) : Prop :=
  ∀ room, read room (write p) = if (write p).depth ≤ room then .ok p else .error .malformed

section
variable {room : Nat}

theorem readItems_write {ps : List Param} (h : ∀ p ∈ ps, p.ReadsBack) :
    readItems room (writeItems ps) =
      if Doc.depthItems (writeItems ps) ≤ room then .ok ps else .error .malformed := by
  induction ps with
  | nil => rfl
  | cons p ps ih =>
    obtain ⟨hp, hps⟩ := List.forall_mem_cons.mp h
    rw [writeItems, readItems, Doc.depthItems, hp room, ih hps]
    by_cases hhead : (write p).depth ≤ room
    · rw [if_pos hhead]
      by_cases htail : Doc.depthItems (writeItems ps) ≤ room
      · rw [if_pos htail, if_pos (max_le hhead htail)]
        rfl
      · rw [if_neg htail, if_neg fun hmax => htail (le_of_max_le_right hmax)]
        rfl
    · rw [if_neg hhead, if_neg fun hmax => hhead (le_of_max_le_left hmax)]

theorem readEntries_write {es : Params} (before : Params) (h : ∀ e ∈ es, e.2.ReadsBack)
    (hsorted : Sorted.IsSorted (before ++ es)) :
    readEntries room before (writeEntries es) =
      if Doc.depthMembers (writeEntries es) ≤ room then .ok (before ++ es)
      else .error .malformed := by
  induction es generalizing before with
  | nil =>
    rw [List.append_nil]
    rfl
  | cons e es ih =>
    obtain ⟨key, p⟩ := e
    obtain ⟨hp, hes⟩ := List.forall_mem_cons.mp h
    have hlast : ∀ e ∈ before, e.1 < key := fun e he =>
      (List.pairwise_append.mp hsorted).2.2 e he (key, p) List.mem_cons_self
    have hshift : before ++ (key, p) :: es = (before ++ [(key, p)]) ++ es :=
      List.append_cons before (key, p) es
    rw [writeEntries, readEntries, Doc.depthMembers, hp room]
    by_cases hhead : (write p).depth ≤ room
    · rw [if_pos hhead]
      simp only
      rw [Sorted.insert_of_forall_lt p hlast, ih _ hes (hshift ▸ hsorted), ← hshift]
      by_cases htail : Doc.depthMembers (writeEntries es) ≤ room
      · rw [if_pos htail, if_pos (max_le hhead htail)]
      · rw [if_neg htail, if_neg fun hmax => htail (le_of_max_le_right hmax)]
    · rw [if_neg hhead, if_neg fun hmax => hhead (le_of_max_le_left hmax)]

end

theorem readsBack_of_flat {p : Param} (hflat : (write p).depth = 0)
    (h : ∀ room, read room (write p) = .ok p) : p.ReadsBack := by
  intro room
  rw [h room, hflat, if_pos (Nat.zero_le room)]

theorem readsBack_int (i : Int64) : ReadsBack (.int i) := by
  refine readsBack_of_flat rfl fun room => ?_
  have hhigh : i.toInt ≤ 0x7fffffffffffffff := Int64.toInt_le i
  rw [write, Doc.int, read]
  simp only [Numeral.value?_toInt]
  rw [ofNum, if_pos hhigh, Int64.ofInt_toInt]

theorem readsBack_list {items : List Param} (h : ∀ p ∈ items, p.ReadsBack) :
    ReadsBack (.list items) := by
  intro room
  rw [write, Doc.depth]
  cases room with
  | zero =>
    rw [read, if_neg (Nat.not_succ_le_zero _)]
  | succ room =>
    rw [read, readItems_write h]
    by_cases hdepth : Doc.depthItems (writeItems items) ≤ room
    · rw [if_pos hdepth, if_pos (Nat.succ_le_succ hdepth)]
      rfl
    · rw [if_neg hdepth, if_neg fun hle => hdepth (Nat.le_of_succ_le_succ hle)]
      rfl

end Param

theorem Params.read_write {m : Params} (hsorted : Sorted.IsSorted m)
    (h : ∀ e ∈ m, e.2.ReadsBack) (room : Nat) :
    Params.codec.read room (Params.codec.write m) =
      if (Params.codec.write m).depth ≤ room then .ok m else .error .malformed := by
  show Params.codec.read room (.object (Param.writeEntries m)) =
    if (Doc.object (Param.writeEntries m)).depth ≤ room then _ else _
  rw [Doc.depth]
  cases room with
  | zero =>
    rw [if_neg (Nat.not_succ_le_zero _)]
    rfl
  | succ room =>
    show Param.readEntries room [] (Param.writeEntries m) = _
    rw [Param.readEntries_write [] h hsorted]
    simp only [Nat.succ_le_succ_iff, List.nil_append]

namespace Param

theorem readsBack_map {m : Params} (hsorted : Sorted.IsSorted m) (h : ∀ e ∈ m, e.2.ReadsBack) :
    ReadsBack (.map m) := by
  intro room
  have hwrite : write (.map m) = Params.codec.write m := by
    rw [write]
    rfl
  have hread : read room (Params.codec.write m) =
      (Params.codec.read room (Params.codec.write m)).map .map := by
    show read room (.object (writeEntries m)) = _
    cases room with
    | zero =>
      rw [read]
      rfl
    | succ room =>
      rw [read]
      rfl
  rw [hwrite, hread, Params.read_write hsorted h]
  split <;> rfl

theorem Exact.readsBack {p : Param} (h : p.Exact) : p.ReadsBack := by
  induction h with
  | null => exact readsBack_of_flat rfl fun _ => rfl
  | bool b => exact readsBack_of_flat rfl fun _ => rfl
  | int i => exact readsBack_int i
  | text s => exact readsBack_of_flat rfl fun _ => rfl
  | list h ih => exact readsBack_list ih
  | map hsorted h ih => exact readsBack_map hsorted ih

end Param

theorem Params.restores {m : Params} (hm : Param.Exact (.map m)) : Params.codec.Restores m := by
  cases hm with
  | map hsorted h =>
    have hread := Params.read_write hsorted fun e he => (h e he).readsBack
    have hwritten : (Param.write (.map m)).Written := (Param.Exact.map hsorted h).written
    rw [Param.write] at hwritten
    refine ⟨hwritten, fun {room} hdepth => ?_, fun {room b} hok => ?_⟩
    · rw [hread room, if_pos hdepth]
    · by_contra hdepth
      rw [hread room, if_neg hdepth] at hok
      cases hok

end DeviceHub
