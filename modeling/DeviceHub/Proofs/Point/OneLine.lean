import DeviceHub.Proofs.Point.RoundTrip

/-!
# A point is one line

* `newline_not_mem_marked`, `newline_not_mem_valueChars`   no part of a line breaks it;
* `newline_not_mem_line`                                   no line is broken.
-/

namespace DeviceHub.Point

open Reader

theorem spaced_ne_newline (c : Char) : spaced c ≠ '\n' := by
  unfold spaced
  split
  · decide
  · rename_i h
    exact fun heq => h (Or.inr heq)

theorem newline_not_mem_marked (seps cs : List Char) : '\n' ∉ marked seps cs := by
  intro h
  obtain ⟨c, -, hc⟩ := List.mem_flatMap.mp h
  by_cases hsep : spaced c ∈ seps
  · have hmarked : escapeChar seps c = ['\\', spaced c] := if_pos hsep
    rw [hmarked, List.mem_pair] at hc
    exact hc.elim (by decide) (fun heq => spaced_ne_newline c heq.symm)
  · have hplain : escapeChar seps c = [spaced c] := if_neg hsep
    rw [hplain, List.mem_singleton] at hc
    exact spaced_ne_newline c hc.symm

theorem newline_not_mem_quoteChar (c : Char) : '\n' ∉ quoteChar c := by
  unfold quoteChar
  by_cases h₁ : c = '\\'
  · rw [if_pos h₁]
    decide
  rw [if_neg h₁]
  by_cases h₂ : c = '"'
  · rw [if_pos h₂]
    decide
  rw [if_neg h₂]
  by_cases h₃ : c = '\r'
  · rw [if_pos h₃]
    decide
  rw [if_neg h₃]
  by_cases h₄ : c = '\n'
  · rw [if_pos h₄]
    decide
  · rw [if_neg h₄, List.mem_singleton]
    exact fun heq => h₄ heq.symm

theorem newline_not_isNumeric : Decimal.isNumeric '\n' = false := by decide

theorem newline_not_mem_valueChars {v : FieldValue} {cs : List Char} (h : valueChars? v = some cs) :
    '\n' ∉ cs := by
  cases v with
  | float x =>
    by_cases hx : x.isFinite = true
    · rw [valueChars?, if_pos hx] at h
      obtain rfl := Option.some.inj h
      intro hmem
      have hnumeric := (Decimal.reportText_of_isFinite hx).2 _ hmem
      rw [newline_not_isNumeric] at hnumeric
      cases hnumeric
    · rw [valueChars?, if_neg hx] at h
      cases h
  | int i =>
    obtain rfl := Option.some.inj h
    intro hmem
    rcases List.mem_append.mp hmem with hmem | hmem
    · have hnumeric := Decimal.all_isNumeric_integerChars _ _ hmem
      rw [newline_not_isNumeric] at hnumeric
      cases hnumeric
    · exact absurd (List.mem_singleton.mp hmem) (by decide)
  | bool b =>
    obtain rfl := Option.some.inj h
    cases b <;> decide
  | text s =>
    obtain rfl := Option.some.inj h
    intro hmem
    rcases List.mem_cons.mp hmem with heq | hmem
    · exact absurd heq (by decide)
    · rcases List.mem_append.mp hmem with hmem | hmem
      · obtain ⟨c, -, hc⟩ := List.mem_flatMap.mp hmem
        exact newline_not_mem_quoteChar c hc
      · exact absurd (List.mem_singleton.mp hmem) (by decide)

theorem newline_not_mem_named {s : String} {cs : List Char} (hcs : '\n' ∉ cs) :
    '\n' ∉ nameChars s ++ '=' :: cs := by
  intro hmem
  rcases List.mem_append.mp hmem with hmem | hmem
  · exact newline_not_mem_marked _ _ hmem
  · exact (List.mem_cons.mp hmem).elim (by decide) hcs

theorem newline_not_mem_row {β : Type} {write : β → List Char} {bs : List β}
    (h : ∀ b ∈ bs, '\n' ∉ write b) : '\n' ∉ bs.flatMap fun b => ',' :: write b := by
  intro hmem
  obtain ⟨b, hb, hmem⟩ := List.mem_flatMap.mp hmem
  exact (List.mem_cons.mp hmem).elim (by decide) (h b hb)

theorem newline_not_mem_line {p : Point} {line : String} (h : p.line? = some line) :
    '\n' ∉ line.toList := by
  obtain ⟨cs, hcs, rfl⟩ := Option.map_eq_some_iff.mp h
  rw [String.toList_ofList]
  cases hfields : p.keptFields with
  | nil =>
    have hnone : p.lineChars? = none := by
      unfold lineChars?
      rw [filterMap_fieldChars?, hfields]
      rfl
    cases hnone.symm.trans hcs
  | cons f fs =>
    have hfield : ∀ f' ∈ f :: fs, '\n' ∉ fieldChars f' := by
      intro f' hf'
      rw [← hfields] at hf'
      obtain ⟨v, hv⟩ := valueChars?_of_isUsable (List.mem_filter.mp hf').2
      unfold fieldChars
      rw [hv]
      exact newline_not_mem_named (newline_not_mem_valueChars hv)
    have hts : '\n' ∉ Decimal.integerChars p.ts.toInt := by
      intro hmem
      have hnumeric := Decimal.all_isNumeric_integerChars _ _ hmem
      rw [newline_not_isNumeric] at hnumeric
      cases hnumeric
    obtain rfl := Option.some.inj ((lineChars?_of_keptFields hfields).symm.trans hcs)
    simp only [List.mem_append, List.mem_cons, not_or]
    exact ⟨newline_not_mem_marked _ _,
      newline_not_mem_row fun t _ => newline_not_mem_named (newline_not_mem_marked _ _), by decide,
      hfield f List.mem_cons_self,
      newline_not_mem_row fun f' hf' => hfield f' (List.mem_cons_of_mem _ hf'), by decide, hts⟩

end DeviceHub.Point
