import DeviceHub.Proofs.Point.Names

/-!
# Lines are read back

* `FieldValue.shown`, `Point.reading`   what the line of a point is to show;
* `value?_of_valueChars?`   every value that is written is read back, whatever it is;
* `Inverts`                 an item is read back exactly when its names allow it;
* `Inverts.series`          and so are items that each follow a comma;
* `Point.Plain`             no name of a point ends in a backslash;
* `line_reads_back_iff`     a line is read back exactly when its point is plain.
-/

namespace DeviceHub

/-- Whether a value can be written: all but doubles that are not finite. -/
def FieldValue.isUsable : FieldValue → Bool
  | .float x => x.isFinite
  | _ => true

def FieldValue.shown : FieldValue → Point.Reading.Value
  | .float x => .float (Decimal.reportText x)
  | .int i => .int i
  | .text s => .text s
  | .bool b => .bool b

namespace Point

def keptTags (p : Point) : List (String × String) := p.tags.filter fun t => t.2 ≠ ""

def keptFields (p : Point) : List (String × FieldValue) := p.fields.filter fun f => f.2.isUsable

/-- what the line of a point is to show -/
def reading (p : Point) : Reading where
  measurement := unbroken p.measurement
  tags := p.keptTags.map fun t => (unbroken t.1, unbroken t.2)
  fields := p.keptFields.map fun f => (unbroken f.1, f.2.shown)
  ts := p.ts

/-- No name that is written ends in a backslash. -/
structure Plain (p : Point) : Prop where
  measurement : ¬ EndsInBackslash p.measurement
  tags : ∀ t ∈ p.keptTags, ¬ EndsInBackslash t.1 ∧ ¬ EndsInBackslash t.2
  fields : ∀ f ∈ p.keptFields, ¬ EndsInBackslash f.1

namespace Reader

/-! ## Values -/

theorem quoted?_cons {c : Char} (h₁ : c ≠ '"') (h₂ : c ≠ '\\') (cs : List Char) :
    quoted? (c :: cs) = (quoted? cs).map fun r => (c :: r.1, r.2) := by
  rw [quoted?]
  · exact h₁
  · intro d ds hmark
    exact absurd hmark h₂

theorem quoted?_quoteChar (c : Char) (cs : List Char) :
    quoted? (quoteChar c ++ cs) = (quoted? cs).map fun r => (c :: r.1, r.2) := by
  unfold quoteChar
  by_cases h₁ : c = '\\'
  · subst h₁
    rfl
  by_cases h₂ : c = '"'
  · subst h₂
    rfl
  by_cases h₃ : c = '\r'
  · subst h₃
    rfl
  by_cases h₄ : c = '\n'
  · subst h₄
    rfl
  rw [if_neg h₁, if_neg h₂, if_neg h₃, if_neg h₄]
  exact quoted?_cons h₂ h₁ cs

theorem quoted?_quoted (cs rest : List Char) :
    quoted? (cs.flatMap quoteChar ++ '"' :: rest) = some (cs, rest) := by
  induction cs with
  | nil => rfl
  | cons c cs ih =>
    rw [List.flatMap_cons, List.append_assoc, quoted?_quoteChar, ih]
    rfl

theorem int64?_integerChars (i : Int64) : int64? (Decimal.integerChars i.toInt) = some i := by
  have hlow := Int64.le_toInt i
  have hhigh := Int64.toInt_lt i
  unfold int64?
  rw [Decimal.signed?_integerChars]
  simp only
  rw [if_pos (by omega), Int64.ofInt_toInt]

theorem token_numeric {cs : List Char} (hcs : ∀ c ∈ cs, c ∉ separators ∧ c ≠ '\\') {c : Char}
    (hc : c ∈ separators) (rest : List Char) :
    token separators false (cs ++ c :: rest) = (cs, c :: rest) := by
  induction cs with
  | nil => exact token_stopped hc rest
  | cons d cs ih =>
    obtain ⟨hd, hback⟩ := hcs d List.mem_cons_self
    rw [List.cons_append, token_taken (fun h => hd h.2), decide_eq_false hback,
      ih fun e he => hcs e (List.mem_cons_of_mem _ he)]

theorem numeric_apart {c : Char} (h : Decimal.isNumeric c = true) :
    (c ∉ separators ∧ c ≠ '\\') ∧ c ≠ '"' ∧ c ≠ 't' ∧ c ≠ 'f' ∧ c ≠ 'i' := by
  refine ⟨⟨fun hsep => ?_, ?_⟩, ?_, ?_, ?_, ?_⟩
  · simp only [separators, List.mem_cons, List.not_mem_nil, or_false] at hsep
    rcases hsep with rfl | rfl | rfl <;> revert h <;> decide
  all_goals
    rintro rfl
    revert h
    decide

theorem plain?_numeric {cs : List Char} (hne : cs ≠ []) (hcs : ∀ c ∈ cs, Decimal.isNumeric c = true) :
    plain? cs = some (.float (.ofList cs)) := by
  have hmem {c : Char} (hc : c ∈ cs) := numeric_apart (hcs c hc)
  have htrue : cs ≠ ['t', 'r', 'u', 'e'] := by
    rintro rfl
    exact (hmem (c := 't') (by decide)).2.2.1 rfl
  have hfalse : cs ≠ ['f', 'a', 'l', 's', 'e'] := by
    rintro rfl
    exact (hmem (c := 'f') (by decide)).2.2.2.1 rfl
  have hlast : cs.getLast? ≠ some 'i' := fun h =>
    (hmem (List.mem_of_getLast? h)).2.2.2.2 rfl
  unfold plain?
  rw [if_neg htrue, if_neg hfalse, if_neg hlast, if_pos ⟨hne, List.all_eq_true.mpr hcs⟩]

theorem plain?_int (i : Int64) :
    plain? (Decimal.integerChars i.toInt ++ ['i']) = some (.int i) := by
  have hlast : (Decimal.integerChars i.toInt ++ ['i']).getLast? = some 'i' :=
    List.getLast?_concat
  have hne {word : List Char} (hword : word.getLast? ≠ some 'i') :
      Decimal.integerChars i.toInt ++ ['i'] ≠ word := fun h => hword (h ▸ hlast)
  unfold plain?
  rw [if_neg (hne (by decide)), if_neg (hne (by decide)), if_pos hlast, List.dropLast_concat,
    int64?_integerChars]
  rfl

theorem value?_plain {cs : List Char} {v : Reading.Value} (hv : plain? cs = some v)
    (hcs : ∀ c ∈ cs, (c ∉ separators ∧ c ≠ '\\') ∧ c ≠ '"') {c : Char} (hc : c ∈ stops)
    (rest : List Char) : value? (cs ++ c :: rest) = some (v, c :: rest) := by
  have hsep : c ∈ separators := by
    simp only [stops, separators, List.mem_cons, List.not_mem_nil, or_false] at hc ⊢
    tauto
  have hquote : ∀ d ds, cs ++ c :: rest = d :: ds → d ≠ '"' := by
    rintro d ds heq rfl
    have hmem : '"' ∈ cs ++ [c] := by
      cases cs with
      | nil => simp_all
      | cons e cs => simp_all
    rcases List.mem_append.mp hmem with hmem | hmem
    · exact (hcs _ hmem).2 rfl
    · rw [← List.mem_singleton.mp hmem] at hc
      revert hc
      decide
  rw [value?]
  · rw [token_numeric (fun d hd => (hcs d hd).1) hsep, hv]
    rfl
  · intro ds heq
    exact hquote _ ds heq rfl

theorem value?_of_valueChars? {v : FieldValue} {cs : List Char} (hv : valueChars? v = some cs)
    {c : Char} (hc : c ∈ stops) (rest : List Char) :
    value? (cs ++ c :: rest) = some (v.shown, c :: rest) := by
  cases v with
  | float x =>
    by_cases hx : x.isFinite = true
    · obtain ⟨hne, hnumeric⟩ := Decimal.reportText_of_isFinite hx
      rw [valueChars?, if_pos hx] at hv
      obtain rfl := Option.some.inj hv
      refine value?_plain ?_ (fun d hd => ?_) hc rest
      · rw [plain?_numeric hne hnumeric, String.ofList_toList]
        rfl
      · have hapart := numeric_apart (hnumeric d hd)
        exact ⟨hapart.1, hapart.2.1⟩
    · rw [valueChars?, if_neg hx] at hv
      cases hv
  | int i =>
    obtain rfl := Option.some.inj hv
    refine value?_plain (plain?_int i) (fun d hd => ?_) hc rest
    rcases List.mem_append.mp hd with hd | hd
    · have hapart := numeric_apart (Decimal.all_isNumeric_integerChars _ d hd)
      exact ⟨hapart.1, hapart.2.1⟩
    · rw [List.mem_singleton.mp hd]
      decide
  | bool b =>
    obtain rfl := Option.some.inj hv
    cases b with
    | true =>
      refine value?_plain rfl (fun d hd => ?_) hc rest
      simp only [if_true, List.mem_cons, List.not_mem_nil, or_false] at hd
      rcases hd with rfl | rfl | rfl | rfl <;> decide
    | false =>
      refine value?_plain rfl (fun d hd => ?_) hc rest
      simp only [Bool.false_eq_true, if_false, List.mem_cons, List.not_mem_nil, or_false] at hd
      rcases hd with rfl | rfl | rfl | rfl | rfl <;> decide
  | text s =>
    obtain rfl := Option.some.inj hv
    show (quoted? ((s.toList.flatMap quoteChar ++ ['"']) ++ c :: rest)).map _ = _
    rw [List.append_assoc, List.singleton_append, quoted?_quoted]
    show some (Reading.Value.text (String.ofList s.toList), _) = _
    rw [String.ofList_toList]
    rfl

theorem valueChars?_of_isUsable {v : FieldValue} (h : v.isUsable = true) :
    ∃ cs, valueChars? v = some cs := by
  cases v with
  | float x => exact ⟨_, if_pos h⟩
  | _ => exact ⟨_, rfl⟩

theorem valueChars?_of_not_isUsable {v : FieldValue} (h : v.isUsable = false) :
    valueChars? v = none := by
  cases v with
  | float x => exact if_neg (Bool.eq_false_iff.mp h)
  | _ => cases h

/-! ## Items -/

/-- In front of a comma or a space the reader takes the characters of an item as `a` exactly when
`clean` holds, and goes on after them. -/
structure Inverts {α : Type} (item? : List Char → Option (α × List Char)) (cs : List Char) (a : α)
    (clean : Prop) : Prop where
  read : clean → ∀ c ∈ stops, ∀ rest, item? (cs ++ c :: rest) = some (a, c :: rest)
  clean : ∀ c ∈ stops, ∀ rest rest', item? (cs ++ c :: rest) = some (a, rest') → clean

theorem backslash_not_mem_separators : '\\' ∉ separators := by decide

theorem mem_separators_of_mem_stops {c : Char} (h : c ∈ stops) : c ∈ separators := by
  simp only [stops, separators, List.mem_cons, List.not_mem_nil, or_false] at h ⊢
  tauto

theorem ofList_eq_unbroken {cs : List Char} {s : String} :
    String.ofList cs = unbroken s ↔ cs = s.toList.map spaced := String.ofList_inj

theorem key?_of_not_ends {s : String} (hs : ¬ EndsInBackslash s) (rest : List Char) :
    key? (nameChars s ++ '=' :: rest) = some (unbroken s, rest) := by
  unfold key?
  rw [show nameChars s = marked separators s.toList from rfl,
    token_of_not_ends backslash_not_mem_separators (by decide) rest hs]
  simp only [unmark_marked backslash_not_mem_separators]
  rfl

theorem not_ends_of_key? {s : String} {rest rest' : List Char}
    (h : key? (nameChars s ++ '=' :: rest) = some (unbroken s, rest')) : ¬ EndsInBackslash s := by
  refine not_ends_of_unmark backslash_not_mem_separators (c := '=') (by decide) rest ?_
  unfold key? at h
  split at h
  · rename_i key rest'' htoken
    rw [Option.some.injEq, Prod.mk.injEq, ofList_eq_unbroken] at h
    rw [show nameChars s = marked separators s.toList from rfl] at htoken
    rw [htoken]
    exact h.1
  · cases h

theorem inverts_tag (t : String × String) :
    Inverts tag? (nameChars t.1 ++ '=' :: nameChars t.2) (unbroken t.1, unbroken t.2)
      (¬ EndsInBackslash t.1 ∧ ¬ EndsInBackslash t.2) where
  read hclean c hc rest := by
    rw [List.append_assoc, List.cons_append, tag?, key?_of_not_ends hclean.1]
    simp only [Option.map_some]
    rw [show nameChars t.2 = marked separators t.2.toList from rfl,
      token_of_not_ends backslash_not_mem_separators (mem_separators_of_mem_stops hc) rest hclean.2]
    simp only [unmark_marked backslash_not_mem_separators]
    rfl
  clean c hc rest rest' h := by
    rw [List.append_assoc, List.cons_append, tag?, Option.map_eq_some_iff] at h
    obtain ⟨⟨key, more⟩, hkey, heq⟩ := h
    rw [Prod.mk.injEq, Prod.mk.injEq, ofList_eq_unbroken] at heq
    obtain ⟨⟨rfl, hvalue⟩, -⟩ := heq
    have hkey' := not_ends_of_key? hkey
    rw [key?_of_not_ends hkey'] at hkey
    cases hkey
    exact ⟨hkey', not_ends_of_unmark backslash_not_mem_separators (mem_separators_of_mem_stops hc)
      rest hvalue⟩

theorem inverts_field {f : String × FieldValue} {cs : List Char} (hv : valueChars? f.2 = some cs) :
    Inverts field? (nameChars f.1 ++ '=' :: cs) (unbroken f.1, f.2.shown)
      (¬ EndsInBackslash f.1) where
  read hclean c hc rest := by
    rw [List.append_assoc, List.cons_append, field?, key?_of_not_ends hclean]
    simp only [Option.bind_some, value?_of_valueChars? hv hc rest]
    rfl
  clean c hc rest rest' h := by
    rw [List.append_assoc, List.cons_append, field?, Option.bind_eq_some_iff] at h
    obtain ⟨⟨key, more⟩, hkey, heq⟩ := h
    rw [Option.map_eq_some_iff] at heq
    obtain ⟨v, -, heq⟩ := heq
    rw [Prod.mk.injEq, Prod.mk.injEq] at heq
    obtain ⟨⟨rfl, -⟩, -⟩ := heq
    exact not_ends_of_key? hkey

/-! ## Items in a row -/

section
variable {α β : Type} {item? : List Char → Option (α × List Char)} {write : β → List Char}
  {shown : β → α} {clean : β → Prop}

theorem series?_space (cs : List Char) : series? item? (' ' :: cs) = some ([], cs) := by
  rw [series?]

theorem series?_comma {cs rest : List Char} {a : α} (hitem : item? cs = some (a, rest))
    (hlength : rest.length ≤ cs.length) :
    series? item? (',' :: cs) = (series? item? rest).map fun r => (a :: r.1, r.2) := by
  rw [series?]
  split
  · rename_i b more heq
    cases hitem.symm.trans heq
    rw [if_pos hlength]
  · rename_i heq
    cases hitem.symm.trans heq

theorem series?_comma_eq_some {cs tail : List Char} {a : α} {as : List α}
    (h : series? item? (',' :: cs) = some (a :: as, tail)) :
    ∃ rest, item? cs = some (a, rest) ∧ series? item? rest = some (as, tail) := by
  rw [series?] at h
  split at h
  · rename_i b rest hitem
    split at h
    · obtain ⟨⟨bs, more⟩, hseries, heq⟩ := Option.map_eq_some_iff.mp h
      cases heq
      exact ⟨rest, hitem, hseries⟩
    · cases h
  · cases h

/-- what follows an item begins with a comma or a space -/
theorem row_cons (write : β → List Char) (bs : List β) (rest : List Char) :
    ∃ c ∈ stops, ∃ more, bs.flatMap (fun b => ',' :: write b) ++ ' ' :: rest = c :: more := by
  cases bs with
  | nil => exact ⟨' ', by decide, rest, rfl⟩
  | cons b bs => exact ⟨',', by decide, _, rfl⟩

theorem Inverts.series (bs : List β) (h : ∀ b ∈ bs, Inverts item? (write b) (shown b) (clean b)) :
    (∀ rest, (∀ b ∈ bs, clean b) →
      series? item? (bs.flatMap (fun b => ',' :: write b) ++ ' ' :: rest) =
        some (bs.map shown, rest)) ∧
    ∀ rest rest', series? item? (bs.flatMap (fun b => ',' :: write b) ++ ' ' :: rest) =
      some (bs.map shown, rest') → ∀ b ∈ bs, clean b := by
  induction bs with
  | nil => exact ⟨fun rest _ => series?_space rest, fun _ _ _ b hb => by cases hb⟩
  | cons b bs ih =>
    have hb := h b List.mem_cons_self
    obtain ⟨ihread, ihclean⟩ := ih fun b' hb' => h b' (List.mem_cons_of_mem _ hb')
    have hrow (rest : List Char) : (b :: bs).flatMap (fun b => ',' :: write b) ++ ' ' :: rest =
        ',' :: (write b ++ (bs.flatMap (fun b => ',' :: write b) ++ ' ' :: rest)) := by
      rw [List.flatMap_cons, List.append_assoc, List.cons_append]
    refine ⟨fun rest hclean => ?_, fun rest rest' hread => ?_⟩
    · obtain ⟨c, hc, more, hmore⟩ := row_cons write bs rest
      have hitem := hb.read (hclean b List.mem_cons_self) c hc more
      rw [← hmore] at hitem
      rw [hrow, series?_comma hitem (by simp only [List.length_append]; omega),
        ihread rest fun b' hb' => hclean b' (List.mem_cons_of_mem _ hb')]
      rfl
    · obtain ⟨c, hc, more, hmore⟩ := row_cons write bs rest
      rw [hrow] at hread
      obtain ⟨left, hitem, htail⟩ := series?_comma_eq_some hread
      -- the first item is clean, so the reader goes on where the second one begins
      rw [hmore] at hitem
      have hclean := hb.clean c hc more left hitem
      rw [hb.read hclean c hc more] at hitem
      cases hitem
      rw [← hmore] at htail
      intro b' hb'
      rcases List.mem_cons.mp hb' with rfl | hb'
      · exact hclean
      · exact ihclean rest rest' htail b' hb'

end

/-! ## A whole line -/

theorem flatMap_tagChars (p : Point) : p.tags.flatMap tagChars =
    p.keptTags.flatMap fun t => ',' :: (nameChars t.1 ++ '=' :: nameChars t.2) := by
  unfold keptTags
  induction p.tags with
  | nil => rfl
  | cons t ts ih =>
    rw [List.flatMap_cons, ih]
    by_cases ht : t.2 = ""
    · have hempty : tagChars t = [] := if_pos (by rw [ht]; rfl)
      rw [hempty, List.filter_cons_of_neg (by simp [ht])]
      rfl
    · have hfull : tagChars t = ',' :: nameChars t.1 ++ '=' :: nameChars t.2 :=
        if_neg (by simpa using ht)
      rw [hfull, List.filter_cons_of_pos (by simp [ht])]
      rfl

def fieldChars (f : String × FieldValue) : List Char :=
  nameChars f.1 ++ '=' :: (valueChars? f.2).getD []

theorem filterMap_fieldChars? (p : Point) :
    p.fields.filterMap fieldChars? = p.keptFields.map fieldChars := by
  unfold keptFields
  induction p.fields with
  | nil => rfl
  | cons f fs ih =>
    cases hf : f.2.isUsable with
    | true =>
      obtain ⟨cs, hcs⟩ := valueChars?_of_isUsable hf
      have hchars : fieldChars? f = some (fieldChars f) := by
        unfold fieldChars? fieldChars
        rw [hcs]
        rfl
      rw [List.filterMap_cons_some hchars, List.filter_cons_of_pos (by simp [hf]), ih]
      rfl
    | false =>
      have hchars : fieldChars? f = none := by
        unfold fieldChars?
        rw [valueChars?_of_not_isUsable hf]
        rfl
      rw [List.filterMap_cons_none hchars, List.filter_cons_of_neg (by simp [hf]), ih]

theorem intercalate_comma (cs : List Char) (css : List (List Char)) :
    List.intercalate [','] (cs :: css) = cs ++ css.flatMap (',' :: ·) := by
  induction css generalizing cs with
  | nil => simp [List.intercalate]
  | cons ds css ih =>
    rw [List.flatMap_cons, List.cons_append, ← ih ds]
    simp [List.intercalate, List.intersperse]

theorem inverts_keptField {p : Point} {f : String × FieldValue} (hf : f ∈ p.keptFields) :
    Inverts field? (fieldChars f) (unbroken f.1, f.2.shown) (¬ EndsInBackslash f.1) := by
  obtain ⟨cs, hcs⟩ := valueChars?_of_isUsable (List.mem_filter.mp hf).2
  unfold fieldChars
  rw [hcs]
  exact inverts_field hcs

theorem lineChars?_of_keptFields {p : Point} {f : String × FieldValue}
    {fs : List (String × FieldValue)} (hfields : p.keptFields = f :: fs) :
    p.lineChars? = some (marked stops p.measurement.toList ++
      ((p.keptTags.flatMap fun t => ',' :: (nameChars t.1 ++ '=' :: nameChars t.2)) ++
      ' ' :: (fieldChars f ++ (fs.flatMap (fun f => ',' :: fieldChars f) ++
      ' ' :: Decimal.integerChars p.ts.toInt)))) := by
  unfold lineChars?
  rw [filterMap_fieldChars?, hfields, flatMap_tagChars]
  simp only [List.map_cons]
  rw [intercalate_comma, List.flatMap_map, List.append_assoc, List.append_assoc]
  rfl

theorem readChars?_eq_some {line : List Char} {r : Reading} :
    readChars? line = some r ↔ ∃ afterTags first afterFirst others afterOthers,
      String.ofList (unmark stops (token stops false line).1) = r.measurement ∧
      series? tag? (token stops false line).2 = some (r.tags, afterTags) ∧
      field? afterTags = some (first, afterFirst) ∧
      series? field? afterFirst = some (others, afterOthers) ∧
      first :: others = r.fields ∧ int64? afterOthers = some r.ts := by
  unfold readChars?
  constructor
  · intro h
    obtain ⟨⟨tags, afterTags⟩, htags, h⟩ := Option.bind_eq_some_iff.mp h
    obtain ⟨⟨first, afterFirst⟩, hfirst, h⟩ := Option.bind_eq_some_iff.mp h
    obtain ⟨⟨others, afterOthers⟩, hothers, h⟩ := Option.bind_eq_some_iff.mp h
    obtain ⟨ts, hts, rfl⟩ := Option.map_eq_some_iff.mp h
    exact ⟨afterTags, first, afterFirst, others, afterOthers, rfl, htags, hfirst, hothers, rfl, hts⟩
  · obtain ⟨measurement, tags, fields, ts⟩ := r
    rintro ⟨afterTags, first, afterFirst, others, afterOthers, rfl, htags, hfirst, hothers, rfl, hts⟩
    simp only [htags, hfirst, hothers, hts, Option.bind_some, Option.map_some]

/-- A measurement, tags, a first field and further fields are read back, each exactly when its names
allow it. -/
theorem readChars?_iff (p : Point) {f : String × FieldValue} {fs : List (String × FieldValue)}
    (hfields : p.keptFields = f :: fs) :
    readChars? (marked stops p.measurement.toList ++
      ((p.keptTags.flatMap fun t => ',' :: (nameChars t.1 ++ '=' :: nameChars t.2)) ++
      ' ' :: (fieldChars f ++ (fs.flatMap (fun f => ',' :: fieldChars f) ++
      ' ' :: Decimal.integerChars p.ts.toInt)))) = some p.reading ↔ p.Plain := by
  have hstops : '\\' ∉ stops := by decide
  have hkept : ∀ f' ∈ f :: fs, Inverts field? (fieldChars f') (unbroken f'.1, f'.2.shown)
      (¬ EndsInBackslash f'.1) := fun f' hf' => inverts_keptField (hfields ▸ hf')
  have hreading : p.reading.fields =
      (unbroken f.1, f.2.shown) :: fs.map fun f => (unbroken f.1, f.2.shown) := by
    show p.keptFields.map _ = _
    rw [hfields]
    rfl
  obtain ⟨readTags, cleanTags⟩ := Inverts.series p.keptTags fun t _ => inverts_tag t
  obtain ⟨readFields, cleanFields⟩ := Inverts.series fs fun f' hf' =>
    hkept f' (List.mem_cons_of_mem _ hf')
  have hfirst := hkept f List.mem_cons_self
  obtain ⟨d, hd, afterFirst, hafterFirst⟩ :=
    row_cons fieldChars fs (Decimal.integerChars p.ts.toInt)
  generalize hrest : fieldChars f ++ (fs.flatMap (fun f => ',' :: fieldChars f) ++
    ' ' :: Decimal.integerChars p.ts.toInt) = rest
  obtain ⟨c, hc, more, hmore⟩ := row_cons
    (fun t : String × String => nameChars t.1 ++ '=' :: nameChars t.2) p.keptTags rest
  rw [readChars?_eq_some, hmore]
  constructor
  · rintro ⟨afterTags, first, afterFirst', others, afterOthers, hm, htags, hone, hothers, heq, -⟩
    -- what was read of a part shows that its names are clean, and so where the next part begins
    have hmeasurement : ¬ EndsInBackslash p.measurement :=
      not_ends_of_unmark hstops hc more (ofList_eq_unbroken.mp hm)
    rw [token_of_not_ends hstops hc more hmeasurement, ← hmore] at htags
    have hcleanTags := cleanTags rest afterTags htags
    rw [readTags rest hcleanTags] at htags
    cases htags
    rw [hreading] at heq
    cases heq
    rw [← hrest, hafterFirst] at hone
    have hcleanFirst := hfirst.clean d hd afterFirst afterFirst' hone
    rw [hfirst.read hcleanFirst d hd afterFirst] at hone
    cases hone
    rw [← hafterFirst] at hothers
    have hcleanFields := cleanFields _ afterOthers hothers
    refine ⟨hmeasurement, hcleanTags, fun f' hf' => ?_⟩
    rw [hfields] at hf'
    rcases List.mem_cons.mp hf' with rfl | hf'
    · exact hcleanFirst
    · exact hcleanFields f' hf'
  · intro hplain
    have hfieldsPlain : ∀ f' ∈ f :: fs, ¬ EndsInBackslash f'.1 := fun f' hf' =>
      hplain.fields f' (hfields ▸ hf')
    rw [token_of_not_ends hstops hc more hplain.measurement, ← hmore]
    refine ⟨rest, _, _, _, _, ?_, readTags rest hplain.tags, ?_,
      readFields _ fun f' hf' => hfieldsPlain f' (List.mem_cons_of_mem _ hf'), hreading.symm,
      int64?_integerChars p.ts⟩
    · rw [unmark_marked hstops]
      rfl
    · rw [← hrest, hafterFirst]
      exact hfirst.read (hfieldsPlain f List.mem_cons_self) d hd afterFirst

end Reader

open Reader

/-- Every point with a field that can be written has a line.  The line is read back as the point,
with spaces instead of line breaks in its names and without the tags and fields that are not written,
exactly when neither the measurement nor a key or a tag's value that is written ends in a backslash. -/
theorem line_reads_back_iff (p : Point) (hfield : ∃ f ∈ p.fields, f.2.isUsable = true) :
    ∃ line, p.line? = some line ∧ (read? line = some p.reading ↔ p.Plain) := by
  obtain ⟨f, hf, husable⟩ := hfield
  have hmem : f ∈ p.keptFields := List.mem_filter.mpr ⟨hf, husable⟩
  obtain ⟨f, fs, hfields⟩ := List.exists_cons_of_ne_nil (List.ne_nil_of_mem hmem)
  have hchars := lineChars?_of_keptFields hfields
  refine ⟨_, congrArg (Option.map String.ofList) hchars, ?_⟩
  show readChars? (String.ofList _).toList = some p.reading ↔ p.Plain
  rw [String.toList_ofList]
  exact readChars?_iff p hfields

/-- a point whose names and texts are full of separators, quotes, backslashes and line breaks -/
def awkward (measurement : String) : Point where
  measurement := measurement
  tags := [("k=1", "v\\ ,\r"), ("none", "")]
  fields := [("f\\,1", .text "x\"y\\\n=, "), ("g", .int (-5)), ("h=", .bool true)]
  ts := -7

/-- It is read back, and no more so once a backslash ends its measurement. -/
theorem line_reads_back_iff_awkward :
    (∃ line, (awkward "a\\,b c=\n").line? = some line ∧
      read? line = some (awkward "a\\,b c=\n").reading) ∧
    ∃ line, (awkward "a\\").line? = some line ∧ read? line ≠ some (awkward "a\\").reading := by
  constructor
  · obtain ⟨line, hline, hread⟩ := line_reads_back_iff (awkward "a\\,b c=\n")
      ⟨_, List.mem_cons_self, rfl⟩
    exact ⟨line, hline, hread.mpr ⟨by decide, by decide, by decide⟩⟩
  · obtain ⟨line, hline, hread⟩ := line_reads_back_iff (awkward "a\\")
      ⟨_, List.mem_cons_self, rfl⟩
    exact ⟨line, hline, fun h => (hread.mp h).measurement (by decide)⟩

end Point

end DeviceHub
