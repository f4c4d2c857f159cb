import Mathlib
import DeviceHub.Sorted

/-!
# Entries in key order: laws

* `find?_insert`, `find?_erase`, `find?_map`, `find?_filter`   what a key finds after a change;
* `insert_insert`   the entry that is put in last counts;
* `insert_of_forall_lt`   an entry behind all others comes last;
* `isSorted_insert`, `isSorted_erase`, `isSorted_filter`   changes keep the order of keys;
* `find?_of_mem`, `mem_iff_find?`   where keys do not repeat a key finds every entry;
* `mem_ofList`, `find?_ofList`, `find?_ofList_reverse`, `isSorted_ofList`   what was in no order before is
                          in order now, and nothing else; the last entry of a key counts.
-/

namespace DeviceHub.Sorted

variable {α : Type}

theorem insert_ne_nil (key : String) (value : α) (entries : List (String × α)) :
    insert key value entries ≠ [] := by
  cases entries with
  | nil => exact List.cons_ne_nil _ _
  | cons e rest =>
    obtain ⟨k, v⟩ := e
    rw [insert]
    split
    · exact List.cons_ne_nil _ _
    · split <;> exact List.cons_ne_nil _ _

theorem length_insert_le (key : String) (value : α) (entries : List (String × α)) :
    (insert key value entries).length ≤ entries.length + 1 := by
  induction entries with
  | nil => exact le_rfl
  | cons e rest ih =>
    obtain ⟨k, v⟩ := e
    rw [insert]
    split
    · exact le_rfl
    · split
      · exact Nat.le_succ _
      · exact Nat.succ_le_succ ih

/-! ## What a key finds -/

theorem find?_insert (key k : String) (value : α) (entries : List (String × α)) :
    find? k (insert key value entries) = if key = k then some value else find? k entries := by
  induction entries with
  | nil =>
    rw [insert, find?_cons]
  | cons e rest ih =>
    obtain ⟨k', v'⟩ := e
    rw [insert]
    by_cases hlt : key < k'
    · rw [if_pos hlt, find?_cons]
    · rw [if_neg hlt]
      by_cases heq : key = k'
      · subst heq
        rw [if_pos rfl, find?_cons, find?_cons]
        by_cases hk : key = k
        · rw [if_pos hk, if_pos hk]
        · rw [if_neg hk, if_neg hk, if_neg hk]
      · rw [if_neg heq, find?_cons, find?_cons, ih]
        by_cases hk : k' = k
        · rw [if_pos hk, if_neg (fun h => heq (h.trans hk.symm)), if_pos hk]
        · rw [if_neg hk, if_neg hk]

theorem find?_erase (key k : String) (entries : List (String × α)) :
    find? k (erase key entries) = if key = k then none else find? k entries := by
  induction entries with
  | nil => simp [erase]
  | cons e rest ih =>
    by_cases he : e.1 = key
    · have hcut : erase key (e :: rest) = erase key rest := by simp [erase, he]
      rw [hcut, ih, find?_cons]
      by_cases hk : key = k
      · rw [if_pos hk, if_pos hk]
      · rw [if_neg hk, if_neg hk, if_neg (fun h => hk (he.symm.trans h))]
    · have hkeep : erase key (e :: rest) = e :: erase key rest := by simp [erase, he]
      rw [hkeep, find?_cons, find?_cons, ih]
      by_cases hk : e.1 = k
      · rw [if_pos hk, if_pos hk, if_neg (fun h => he (hk.trans h.symm))]
      · rw [if_neg hk, if_neg hk]

theorem insert_insert (key : String) (value value' : α) (entries : List (String × α)) :
    insert key value (insert key value' entries) = insert key value entries := by
  have hself (v v' : α) (rest : List (String × α)) :
      insert key v ((key, v') :: rest) = (key, v) :: rest := by
    rw [insert, if_neg (String.lt_irrefl key), if_pos rfl]
  induction entries with
  | nil => exact hself value value' []
  | cons e rest ih =>
    obtain ⟨k, v⟩ := e
    by_cases hlt : key < k
    · have hinsert (w : α) : insert key w ((k, v) :: rest) = (key, w) :: (k, v) :: rest := by
        rw [insert, if_pos hlt]
      rw [hinsert, hinsert, hself]
    · by_cases heq : key = k
      · subst heq
        rw [hself, hself, hself]
      · have hinsert (w : α) (es : List (String × α)) :
            insert key w ((k, v) :: es) = (k, v) :: insert key w es := by
          rw [insert, if_neg hlt, if_neg heq]
        rw [hinsert, hinsert, hinsert, ih]

theorem insert_of_forall_lt {key : String} (value : α) {entries : List (String × α)}
    (h : ∀ e ∈ entries, e.1 < key) : insert key value entries = entries ++ [(key, value)] := by
  induction entries with
  | nil => rfl
  | cons e rest ih =>
    obtain ⟨k, v⟩ := e
    have hlt : k < key := h (k, v) List.mem_cons_self
    rw [insert, if_neg (lt_asymm hlt), if_neg (ne_of_gt hlt),
      ih fun e he => h e (List.mem_cons_of_mem _ he)]
    rfl

theorem mem_of_find? {key : String} {value : α} {entries : List (String × α)}
    (h : find? key entries = some value) : (key, value) ∈ entries := by
  obtain ⟨e, he, rfl⟩ := Option.map_eq_some_iff.mp h
  have hkey := List.find?_some he
  rw [← of_decide_eq_true hkey]
  exact List.mem_of_find?_eq_some he

theorem find?_of_mem {entries : List (String × α)} (h : (entries.map (·.1)).Nodup) {key : String}
    {value : α} (hmem : (key, value) ∈ entries) : find? key entries = some value := by
  induction entries with
  | nil => cases hmem
  | cons e rest ih =>
    rw [List.map_cons, List.nodup_cons] at h
    rw [find?_cons]
    rcases List.mem_cons.mp hmem with rfl | hmem
    · rw [if_pos rfl]
    · have hne : e.1 ≠ key := fun heq => h.1 (heq ▸ List.mem_map_of_mem hmem)
      rw [if_neg hne]
      exact ih h.2 hmem

theorem find?_map {β : Type} (f : α → β) (key : String) (entries : List (String × α)) :
    find? key (entries.map fun e => (e.1, f e.2)) = (find? key entries).map f := by
  induction entries with
  | nil => rfl
  | cons e rest ih =>
    rw [List.map_cons, find?_cons, find?_cons, ih]
    split <;> rfl

theorem find?_filter_of_pos {p : String × α → Bool} {key : String} {value : α}
    {entries : List (String × α)} (h : find? key entries = some value) (hp : p (key, value) = true) :
    find? key (entries.filter p) = some value := by
  induction entries with
  | nil => cases h
  | cons e rest ih =>
    rw [find?_cons] at h
    by_cases hk : e.1 = key
    · rw [if_pos hk] at h
      have he : e = (key, value) := Prod.ext hk (Option.some.inj h)
      rw [List.filter_cons_of_pos (he ▸ hp), find?_cons, if_pos hk, h]
    · rw [if_neg hk] at h
      rw [List.filter_cons]
      split
      · rw [find?_cons, if_neg hk]
        exact ih h
      · exact ih h

theorem isSome_find? (key : String) (entries : List (String × α)) :
    (find? key entries).isSome ↔ key ∈ entries.map (·.1) := by
  induction entries with
  | nil => simp
  | cons e rest ih =>
    rw [find?_cons, List.map_cons, List.mem_cons]
    by_cases hk : e.1 = key
    · simp [hk]
    · rw [if_neg hk, ih, or_iff_right (fun h => hk h.symm)]

/-! ## The order of keys -/

theorem isSorted_nil : IsSorted ([] : List (String × α)) := List.Pairwise.nil

theorem mem_insert {key : String} {value : α} {entries : List (String × α)} {e : String × α}
    (h : e ∈ insert key value entries) : e = (key, value) ∨ e ∈ entries := by
  induction entries with
  | nil => exact Or.inl (List.mem_singleton.mp h)
  | cons f rest ih =>
    obtain ⟨k, v⟩ := f
    rw [insert] at h
    split at h
    · exact List.mem_cons.mp h
    · split at h
      · exact (List.mem_cons.mp h).imp id (List.mem_cons_of_mem _)
      · rcases List.mem_cons.mp h with rfl | h
        · exact Or.inr List.mem_cons_self
        · exact (ih h).imp id (List.mem_cons_of_mem _)

theorem isSorted_insert (key : String) (value : α) {entries : List (String × α)}
    (h : IsSorted entries) : IsSorted (insert key value entries) := by
  induction entries with
  | nil => exact List.pairwise_singleton _ _
  | cons e rest ih =>
    obtain ⟨k, v⟩ := e
    obtain ⟨hhead, hrest⟩ := List.pairwise_cons.mp h
    rw [insert]
    split
    · rename_i hlt
      refine List.pairwise_cons.mpr ⟨fun e he => ?_, h⟩
      rcases List.mem_cons.mp he with rfl | he
      · exact hlt
      · exact lt_trans hlt (hhead e he)
    · rename_i hlt
      split
      · rename_i heq
        subst heq
        exact List.pairwise_cons.mpr ⟨hhead, hrest⟩
      · rename_i hne
        refine List.pairwise_cons.mpr ⟨fun e he => ?_, ih hrest⟩
        rcases mem_insert he with rfl | he
        · exact lt_of_le_of_ne (not_lt.mp hlt) (Ne.symm hne)
        · exact hhead e he

theorem isSorted_erase (key : String) {entries : List (String × α)} (h : IsSorted entries) :
    IsSorted (erase key entries) := List.Pairwise.sublist List.filter_sublist h

theorem isSorted_filter (p : String × α → Bool) {entries : List (String × α)}
    (h : IsSorted entries) : IsSorted (entries.filter p) := List.Pairwise.sublist List.filter_sublist h

theorem nodup_keys {entries : List (String × α)} (h : IsSorted entries) :
    (entries.map (·.1)).Nodup :=
  List.Pairwise.map _ (fun _ _ hlt => ne_of_lt hlt) h

theorem mem_iff_find? {entries : List (String × α)} {key : String} {value : α}
    (h : IsSorted entries) : (key, value) ∈ entries ↔ find? key entries = some value := by
  induction entries generalizing value with
  | nil => simp
  | cons e rest ih =>
    obtain ⟨hhead, hrest⟩ := List.pairwise_cons.mp h
    rw [List.mem_cons, find?_cons, ih hrest]
    by_cases hk : e.1 = key
    · have hnone : find? key rest = none := by
        refine Option.eq_none_iff_forall_ne_some.mpr fun v hv => ?_
        exact absurd hk (ne_of_lt (hhead _ ((ih hrest).mpr hv)))
      rw [if_pos hk, hnone]
      constructor
      · rintro (rfl | h)
        · rfl
        · cases h
      · intro hv
        exact Or.inl (Prod.ext hk.symm (Option.some.inj hv).symm)
    · rw [if_neg hk]
      constructor
      · rintro (rfl | h)
        · exact absurd rfl hk
        · exact h
      · exact Or.inr

theorem find?_filter (p : String × α → Bool) {entries : List (String × α)} (h : IsSorted entries)
    (key : String) :
    find? key (entries.filter p) = (find? key entries).filter fun v => p (key, v) := by
  refine Option.ext fun v => ?_
  rw [← mem_iff_find? (isSorted_filter p h), List.mem_filter, mem_iff_find? h,
    Option.filter_eq_some_iff]

/-! ## Entries in any order -/

theorem mem_ofList {e : String × α} {entries : List (String × α)} (h : e ∈ ofList entries) :
    e ∈ entries := by
  have hfold (es acc : List (String × α))
      (h : e ∈ es.foldl (fun m e => insert e.1 e.2 m) acc) : e ∈ es ∨ e ∈ acc := by
    induction es generalizing acc with
    | nil => exact Or.inr h
    | cons f es ih =>
      rcases ih _ h with h | h
      · exact Or.inl (List.mem_cons_of_mem _ h)
      · rcases mem_insert h with rfl | h
        · exact Or.inl List.mem_cons_self
        · exact Or.inr h
  exact (hfold entries [] h).resolve_right List.not_mem_nil

theorem ofList_concat (entries : List (String × α)) (e : String × α) :
    ofList (entries ++ [e]) = insert e.1 e.2 (ofList entries) := by
  unfold ofList
  rw [List.foldl_append]
  rfl

/-- Of entries in any order a key finds the last one. -/
theorem find?_ofList_reverse (entries : List (String × α)) (key : String) :
    find? key (ofList entries) = find? key entries.reverse := by
  induction entries using List.reverseRecOn with
  | nil => rfl
  | append_singleton entries e ih =>
    rw [ofList_concat, find?_insert, List.reverse_concat, find?_cons, ih]

theorem isSorted_ofList (entries : List (String × α)) : IsSorted (ofList entries) := by
  induction entries using List.reverseRecOn with
  | nil => exact isSorted_nil
  | append_singleton entries e ih =>
    rw [ofList_concat]
    exact isSorted_insert _ _ ih

theorem find?_ofList {entries : List (String × α)} (h : (entries.map (·.1)).Nodup) (key : String) :
    find? key (ofList entries) = find? key entries := by
  have hfold (acc : List (String × α)) :
      find? key (entries.foldl (fun m e => insert e.1 e.2 m) acc) =
        (find? key entries).or (find? key acc) := by
    induction entries generalizing acc with
    | nil => rfl
    | cons e entries ih =>
      rw [List.map_cons, List.nodup_cons] at h
      rw [List.foldl_cons, ih h.2, find?_insert, find?_cons]
      by_cases hk : e.1 = key
      · have hnone : find? key entries = none := by
          rw [← Option.not_isSome_iff_eq_none, isSome_find?, ← hk]
          exact h.1
        rw [if_pos hk, if_pos hk, hnone]
        rfl
      · rw [if_neg hk, if_neg hk]
  rw [ofList, hfold, find?_nil, Option.or_none]

end DeviceHub.Sorted
