import DeviceHub.Proofs.Point.RoundTrip
import DeviceHub.Proofs.Sorted

/-!
# Points whose keys are words

The keys of such a point, and its measurement, are written as they are.  Its tags may have any
values that are not empty.

* `IsWord`               a text without separators, backslashes and line breaks;
* `Worded`               a point whose keys are words, and all of whose tags and fields are written;
* `Worded.tag`, `field`, `tagUnlessEmpty`, `fieldIfSome`   how such points are made;
* `series?_tags_eq_none` a value that ends in a backslash takes the separator after it and the key
                         that follows, and no reader gets further;
* `Worded.read?_line`    the line shows the point, or nothing at all.
-/

namespace DeviceHub.Point

open Reader

/-- a text without separators, backslashes and line breaks -/
def IsWord (s : String) : Prop :=
  ∀ c ∈ s.toList, (c ∉ separators ∧ c ≠ '\\') ∧ spaced c = c

instance (s : String) : Decidable (IsWord s) := List.decidableBAll _ s.toList

theorem IsWord.not_ends {s : String} (h : IsWord s) : ¬ EndsInBackslash s := fun hends =>
  (h _ (List.mem_of_getLast? hends)).1.2 rfl

theorem IsWord.unbroken {s : String} (h : IsWord s) : unbroken s = s := by
  have hmap : s.toList.map spaced = s.toList :=
    (List.map_congr_left fun c hc => (h c hc).2).trans (List.map_id _)
  unfold Point.unbroken
  rw [hmap, String.ofList_toList]

theorem IsWord.nameChars {s : String} (h : IsWord s) : nameChars s = s.toList := by
  have hmarked {cs : List Char} (hcs : ∀ c ∈ cs, (c ∉ separators ∧ c ≠ '\\') ∧ spaced c = c) :
      marked separators cs = cs := by
    induction cs with
    | nil => rfl
    | cons c cs ih =>
      obtain ⟨⟨hsep, -⟩, hspaced⟩ := hcs c List.mem_cons_self
      rw [marked_cons_plain (by rwa [hspaced]), hspaced,
        ih fun d hd => hcs d (List.mem_cons_of_mem _ hd)]
  exact hmarked h

/-! ## Points that are made of words -/

/-- The keys of a point and its measurement are words, and all of its tags and fields are written. -/
structure Worded (p : Point) : Prop where
  measurement : IsWord p.measurement
  tags : ∀ t ∈ p.tags, IsWord t.1 ∧ t.2 ≠ ""
  fields : ∀ f ∈ p.fields, IsWord f.1 ∧ f.2.isUsable = true

namespace Worded

variable {p : Point}

theorem new {measurement : String} (h : IsWord measurement) (ts : Int64) :
    (Point.new measurement ts).Worded := ⟨h, nofun, nofun⟩

theorem tag (h : p.Worded) {key value : String} (hkey : IsWord key) (hvalue : value ≠ "") :
    (p.tag key value).Worded where
  measurement := h.measurement
  tags t ht := by
    rcases Sorted.mem_insert ht with rfl | ht
    · exact ⟨hkey, hvalue⟩
    · exact h.tags t ht
  fields := h.fields

theorem field (h : p.Worded) {key : String} {value : FieldValue} (hkey : IsWord key)
    (hvalue : value.isUsable = true) : (p.field key value).Worded where
  measurement := h.measurement
  tags := h.tags
  fields f hf := by
    rcases Sorted.mem_insert hf with rfl | hf
    · exact ⟨hkey, hvalue⟩
    · exact h.fields f hf

theorem tagUnlessEmpty (h : p.Worded) {key : String} (hkey : IsWord key) (value : Option String) :
    (p.tagUnlessEmpty key value).Worded := by
  cases value with
  | none => exact h
  | some v =>
    unfold Point.tagUnlessEmpty
    by_cases hv : v.isEmpty = true
    · simp only [hv, if_true]
      exact h
    · simp only [hv, Bool.false_eq_true, if_false]
      exact h.tag hkey (by simpa using hv)

theorem fieldIfSome {α : Type} (h : p.Worded) {key : String} (hkey : IsWord key)
    {make : α → FieldValue} {o : Option α} (hmake : ∀ a ∈ o, (make a).isUsable = true) :
    (p.fieldIfSome key (o.map make)).Worded := by
  cases o with
  | none => exact h
  | some a => exact h.field hkey (hmake a rfl)

/-! ## What is written of them -/

theorem keptTags (h : p.Worded) : p.keptTags = p.tags :=
  List.filter_eq_self.mpr fun t ht => by simpa using (h.tags t ht).2

theorem keptFields (h : p.Worded) : p.keptFields = p.fields :=
  List.filter_eq_self.mpr fun f hf => (h.fields f hf).2

theorem reading (h : p.Worded) : p.reading =
    ⟨p.measurement, p.tags.map fun t => (t.1, unbroken t.2),
      p.fields.map fun f => (f.1, f.2.shown), p.ts⟩ := by
  have htags : p.tags.map (fun t => (unbroken t.1, unbroken t.2)) =
      p.tags.map fun t => (t.1, unbroken t.2) :=
    List.map_congr_left fun t ht => by rw [(h.tags t ht).1.unbroken]
  have hfields : p.fields.map (fun f => (unbroken f.1, f.2.shown)) =
      p.fields.map fun f => (f.1, f.2.shown) :=
    List.map_congr_left fun f hf => by rw [(h.fields f hf).1.unbroken]
  unfold Point.reading
  rw [h.measurement.unbroken, h.keptTags, h.keptFields, htags, hfields]

theorem plain_iff (h : p.Worded) : p.Plain ↔ ∀ t ∈ p.tags, ¬ EndsInBackslash t.2 := by
  constructor
  · intro hplain t ht
    exact (hplain.tags t (h.keptTags ▸ ht)).2
  · intro htags
    refine ⟨h.measurement.not_ends, ?_, ?_⟩
    · rw [h.keptTags]
      exact fun t ht => ⟨(h.tags t ht).1.not_ends, htags t ht⟩
    · rw [h.keptFields]
      exact fun f hf => (h.fields f hf).1.not_ends

end Worded

/-! ## A value that ends in a backslash -/

namespace Reader

theorem series?_equals {α : Type} (item? : List Char → Option (α × List Char)) (cs : List Char) :
    series? item? ('=' :: cs) = none := by
  rw [series?]
  · intro ds h
    cases h
  · intro ds h
    cases h

theorem series?_comma_eq_none {α : Type} {item? : List Char → Option (α × List Char)}
    {cs rest : List Char} {a : α} (hitem : item? cs = some (a, rest))
    (hrest : series? item? rest = none) : series? item? (',' :: cs) = none := by
  rw [series?]
  split
  · rename_i b more heq
    cases hitem.symm.trans heq
    rw [hrest]
    split <;> rfl
  · rfl

/-- A value that ends in a backslash takes the separator after it, and the word after that. -/
theorem tag?_of_ends {t : String × String} (hkey : IsWord t.1) (hvalue : EndsInBackslash t.2)
    {c : Char} (hc : c ∈ stops) {s : String} (hs : IsWord s) (rest : List Char) :
    ∃ a, tag? (nameChars t.1 ++ '=' :: nameChars t.2 ++ c :: (nameChars s ++ '=' :: rest)) =
      some (a, '=' :: rest) := by
  have hopen : endsMarked false t.2.toList = true := (endsMarked_iff t.2.toList).mpr hvalue
  have hback : decide (c = '\\') = false := by
    rw [decide_eq_false_iff_not]
    rintro rfl
    revert hc
    decide
  have hword : token separators false (s.toList ++ '=' :: rest) = (s.toList, '=' :: rest) :=
    token_numeric (fun d hd => (hs d hd).1) (by decide) rest
  have hvalue' : token separators false (nameChars t.2 ++ c :: (nameChars s ++ '=' :: rest)) =
      (nameChars t.2 ++ c :: s.toList, '=' :: rest) := by
    rw [show nameChars t.2 = marked separators t.2.toList from rfl,
      token_marked backslash_not_mem_separators, hopen, token_taken (by simp), hback, hs.nameChars,
      hword]
  refine ⟨(unbroken t.1, .ofList (unmark separators (nameChars t.2 ++ c :: s.toList))), ?_⟩
  rw [List.append_assoc, List.cons_append, tag?, key?_of_not_ends hkey.not_ends]
  simp only [Option.map_some, hvalue']

theorem row_word {ts : List (String × String)} (hts : ∀ t ∈ ts, IsWord t.1) {s : String}
    (hs : IsWord s) (rest : List Char) :
    ∃ c ∈ stops, ∃ s' more, IsWord s' ∧
      ts.flatMap (fun t => ',' :: (nameChars t.1 ++ '=' :: nameChars t.2)) ++
        ' ' :: (nameChars s ++ '=' :: rest) = c :: (nameChars s' ++ '=' :: more) := by
  cases ts with
  | nil => exact ⟨' ', by decide, s, rest, hs, rfl⟩
  | cons t ts =>
    refine ⟨',', by decide, t.1, nameChars t.2 ++
      (ts.flatMap (fun t => ',' :: (nameChars t.1 ++ '=' :: nameChars t.2)) ++
        ' ' :: (nameChars s ++ '=' :: rest)), hts t List.mem_cons_self, ?_⟩
    rw [List.flatMap_cons, List.append_assoc, List.cons_append, List.append_assoc,
      List.cons_append]

/-- No reader gets beyond a tag whose value ends in a backslash. -/
theorem series?_tags_eq_none {ts : List (String × String)} (hts : ∀ t ∈ ts, IsWord t.1)
    (hends : ∃ t ∈ ts, EndsInBackslash t.2) {s : String} (hs : IsWord s) (rest : List Char) :
    series? tag? (ts.flatMap (fun t => ',' :: (nameChars t.1 ++ '=' :: nameChars t.2)) ++
      ' ' :: (nameChars s ++ '=' :: rest)) = none := by
  induction ts with
  | nil =>
    obtain ⟨t, ht, -⟩ := hends
    cases ht
  | cons t ts ih =>
    have hkey := hts t List.mem_cons_self
    have hts' : ∀ t' ∈ ts, IsWord t'.1 := fun t' ht' => hts t' (List.mem_cons_of_mem _ ht')
    obtain ⟨c, hc, s', more, hs', hrow⟩ := row_word hts' hs rest
    rw [List.flatMap_cons, List.append_assoc, List.cons_append]
    -- the reader gets stuck at the first such value; the tags before it are read
    by_cases hvalue : EndsInBackslash t.2
    · -- the equals sign of the next key is where neither a comma nor a space is
      obtain ⟨a, htag⟩ := tag?_of_ends hkey hvalue hc hs' more
      rw [hrow]
      exact series?_comma_eq_none htag (series?_equals tag? more)
    · have hends' : ∃ t' ∈ ts, EndsInBackslash t'.2 := by
        obtain ⟨t', ht', ht''⟩ := hends
        rcases List.mem_cons.mp ht' with rfl | ht'
        · exact absurd ht'' hvalue
        · exact ⟨t', ht', ht''⟩
      have htag := (inverts_tag t).read ⟨hkey.not_ends, hvalue⟩ c hc (nameChars s' ++ '=' :: more)
      rw [← hrow] at htag
      exact series?_comma_eq_none htag (ih hts' hends')

theorem readChars?_eq_none {m : String} (hm : ¬ EndsInBackslash m) {ts : List (String × String)}
    (hts : ∀ t ∈ ts, IsWord t.1) (hends : ∃ t ∈ ts, EndsInBackslash t.2) {s : String}
    (hs : IsWord s) (rest : List Char) : readChars? (marked stops m.toList ++
      (ts.flatMap (fun t => ',' :: (nameChars t.1 ++ '=' :: nameChars t.2)) ++
        ' ' :: (nameChars s ++ '=' :: rest))) = none := by
  have hnone := series?_tags_eq_none hts hends hs rest
  obtain ⟨c, hc, s', more, -, hrow⟩ := row_word hts hs rest
  rw [hrow] at hnone ⊢
  unfold readChars?
  rw [token_of_not_ends (by decide) hc _ hm]
  simp only [hnone, Option.bind_none]

end Reader

/-- The line of a point whose keys are words shows the point, with spaces instead of line breaks in the
values of its tags; but when one of these ends in a backslash, it shows nothing at all. -/
theorem Worded.read?_line {p : Point} (h : p.Worded) (hfield : p.fields ≠ []) :
    ∃ line, p.line? = some line ∧ read? line =
      if ∀ t ∈ p.tags, ¬ EndsInBackslash t.2 then
        some ⟨p.measurement, p.tags.map fun t => (t.1, unbroken t.2),
          p.fields.map fun f => (f.1, f.2.shown), p.ts⟩
      else none := by
  obtain ⟨f, fs, hfields⟩ := List.exists_cons_of_ne_nil hfield
  have hkept : p.keptFields = f :: fs := h.keptFields.trans hfields
  refine ⟨_, congrArg (Option.map String.ofList) (lineChars?_of_keptFields hkept), ?_⟩
  show readChars? (String.ofList _).toList = _
  rw [String.toList_ofList]
  by_cases htags : ∀ t ∈ p.tags, ¬ EndsInBackslash t.2
  · rw [if_pos htags, ← h.reading]
    exact (readChars?_iff p hkept).mpr (h.plain_iff.mpr htags)
  · rw [if_neg htags]
    have hends : ∃ t ∈ p.tags, EndsInBackslash t.2 := by
      by_contra hnone
      exact htags fun t ht hback => hnone ⟨t, ht, hback⟩
    have hfirst : IsWord f.1 := (h.fields f (hfields ▸ List.mem_cons_self)).1
    have hkeys : ∀ t ∈ p.tags, IsWord t.1 := fun t ht => (h.tags t ht).1
    have hchars (cs : List Char) : fieldChars f ++ cs =
        nameChars f.1 ++ '=' :: ((valueChars? f.2).getD [] ++ cs) := by
      unfold fieldChars
      rw [List.append_assoc, List.cons_append]
    rw [hchars, h.keptTags]
    exact readChars?_eq_none h.measurement.not_ends hkeys hends hfirst _

end DeviceHub.Point
