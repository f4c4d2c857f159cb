import DeviceHub.Proofs.Sorted
import DeviceHub.Proofs.Toml.Scalar

/-!
# TOML documents are read back

* `Line`               a line as it is written: an empty one, a header, or a name with a value;
* `Line.place?`        where the document is after the line;
* `scanLines_line`     a line is read so;
* `read?_lines`        and a document line by line;
* `Table`, `document`  tables of values one below the other, with empty lines between them;
* `read?_document`     such a document is read as its tables.
-/

namespace DeviceHub.Toml

/-! ## Keys -/

/-- Names that need no quotes. -/
def IsBare (name : String) : Prop := name.toList ≠ [] ∧ name.toList.all isBareChar = true

instance (name : String) : Decidable (IsBare name) := inferInstanceAs (Decidable (_ ∧ _))

theorem isGap_eq_false {p : Char → Bool} (hblank : p ' ' = false) (htab : p '\t' = false)
    {c : Char} (hc : p c = true) : isGap c = false := by
  unfold isGap
  have hne : c ≠ ' ' ∧ c ≠ '\t' := by
    constructor
    · rintro rfl
      exact absurd (hblank.symm.trans hc) (by decide)
    · rintro rfl
      exact absurd (htab.symm.trans hc) (by decide)
  rw [decide_eq_false hne.1, decide_eq_false hne.2, Bool.or_false]

theorem IsBare.head {name : String} (h : IsBare name) :
    ∃ c cs, name.toList = c :: cs ∧ isGap c = false ∧
      ∀ d ∈ ['"', '\'', '[', '#', '\n', '\r', '\ufeff'], c ≠ d := by
  obtain ⟨c, cs, hcs⟩ := List.exists_cons_of_ne_nil h.1
  have hc : isBareChar c = true := List.all_eq_true.mp h.2 c (hcs ▸ List.mem_cons_self)
  refine ⟨c, cs, hcs, isGap_eq_false (p := isBareChar) rfl rfl hc, ?_⟩
  rintro d hd rfl
  simp only [List.mem_cons, List.not_mem_nil, or_false] at hd
  rcases hd with rfl | rfl | rfl | rfl | rfl | rfl | rfl
  all_goals exact absurd hc (by decide)

theorem skipGaps_cons {c : Char} (hc : isGap c = false) (cs : List Char) :
    skipGaps (c :: cs) = c :: cs := by
  unfold skipGaps
  rw [List.dropWhile_cons_of_neg (by rw [hc]; decide)]

theorem scanKey_bare {name : String} (h : IsBare name) {rest : List Char}
    (hrest : ∀ c, rest.head? = some c → isBareChar c = false)
    (hdot : (skipGaps rest).head? ≠ some '.') :
    scanKey (name.toList ++ rest) = some ([], name, skipGaps rest) := by
  obtain ⟨c, cs, hcs, hgap, hne⟩ := h.head
  have hspan : (name.toList ++ rest).span isBareChar = (name.toList, rest) :=
    span_append (List.all_eq_true.mp h.2) hrest
  have hpart : scanPart (name.toList ++ rest) = some (name, rest) := by
    have hstart : ∀ t, name.toList ++ rest ≠ '"' :: t ∧ name.toList ++ rest ≠ '\'' :: t := by
      rw [hcs]
      intro t
      exact ⟨fun h => hne '"' (by decide) (List.cons.inj h).1,
        fun h => hne '\'' (by decide) (List.cons.inj h).1⟩
    unfold scanPart
    split
    · rename_i heq
      exact absurd heq (hstart _).1
    · rename_i heq
      exact absurd heq (hstart _).2
    · rw [hspan]
      simp only
      rw [if_neg (by simpa using h.1), String.ofList_toList]
  have hskip : skipGaps (name.toList ++ rest) = name.toList ++ rest := by
    rw [hcs, List.cons_append, skipGaps_cons hgap]
  have hparts : scanParts maxNesting (name.toList ++ rest) = some ([name], skipGaps rest) := by
    unfold maxNesting
    rw [scanParts, hskip, hpart, Option.bind_eq_bind, Option.bind_some]
    simp only
    split
    · rename_i heq
      exact absurd (heq ▸ rfl) hdot
    · rfl
  unfold scanKey
  rw [hparts]
  rfl

/-! ## Lines -/

/-- a line of a document -/
inductive Line
  | blank
  | header (name : String)
  | entry (name : String) (item : Item)

namespace Line

def chars : Line → List Char
  | .blank => ['\n']
  | .header name => ['['] ++ name.toList ++ [']', '\n']
  | .entry name item => name.toList ++ [' ', '=', ' '] ++ item.chars ++ ['\n']

/-- Names need no quotes, and numbers fit. -/
def Sound : Line → Prop
  | .blank => True
  | .header name => IsBare name
  | .entry name item => IsBare name ∧ item.Fits

def place? (p : Place) : Line → Option Place
  | .blank => some p
  | .header name => (openTable [] name p.entries).map fun es => ⟨[name], es⟩
  | .entry name item =>
    (assignIn p.section_ [] name item.value p.entries).map fun es => { p with entries := es }

end Line

theorem scanHeader_bare (p : Place) {name : String} (h : IsBare name) (rest : List Char) :
    scanHeader p ('[' :: (name.toList ++ ']' :: rest)) =
      (openTable [] name p.entries).map fun es => (⟨[name], es⟩, rest) := by
  have hkey : scanKey (name.toList ++ ']' :: rest) = some ([], name, ']' :: rest) :=
    scanKey_bare h (by rintro c ⟨⟩; rfl) (by rw [skipGaps_cons rfl]; simp)
  obtain ⟨c, cs, hcs, hgap, hne⟩ := h.head
  rw [hcs, List.cons_append] at hkey ⊢
  rw [scanHeader, hkey]
  · simp only [Option.bind_eq_bind, Option.bind_some]
    cases openTable [] name p.entries <;> rfl
  · exact fun _ h => hne '[' (by decide) (List.cons.inj h).1

theorem Item.chars_head (i : Item) :
    ∃ c cs, i.chars = c :: cs ∧ isGap c = false := by
  cases i with
  | text s =>
    obtain ⟨cs, h | h⟩ := renderText_head s
    · exact ⟨_, cs, h, rfl⟩
    · exact ⟨_, cs, h, rfl⟩
  | number n =>
    obtain ⟨c, cs, hcs⟩ := List.exists_cons_of_ne_nil (Decimal.digits_ne_nil n)
    have hc : Decimal.isDigit c = true := Decimal.isDigit_of_mem_digits (hcs ▸ List.mem_cons_self)
    exact ⟨c, cs, hcs, isGap_eq_false (p := Decimal.isDigit) rfl rfl hc⟩
  | flag b =>
    cases b with
    | true => exact ⟨'t', ['r', 'u', 'e'], by simp [chars], rfl⟩
    | false => exact ⟨'f', ['a', 'l', 's', 'e'], by simp [chars], rfl⟩

theorem scanEntry_bare (p : Place) {name : String} (h : IsBare name) {item : Item}
    (hitem : item.Fits) (rest : List Char) :
    scanEntry p (name.toList ++ ' ' :: '=' :: ' ' :: (item.chars ++ '\n' :: rest)) =
      (assignIn p.section_ [] name item.value p.entries).map fun es =>
        ({ p with entries := es }, '\n' :: rest) := by
  have hkey : scanKey (name.toList ++ ' ' :: '=' :: ' ' :: (item.chars ++ '\n' :: rest)) =
      some ([], name, '=' :: ' ' :: (item.chars ++ '\n' :: rest)) :=
    scanKey_bare h (by rintro c ⟨⟩; rfl) (by simp [skipGaps, isGap])
  have hskip : skipGaps (' ' :: (item.chars ++ '\n' :: rest)) = item.chars ++ '\n' :: rest := by
    obtain ⟨c, cs, hcs, hgap⟩ := item.chars_head
    rw [hcs, List.cons_append]
    exact (List.dropWhile_cons_of_pos rfl).trans (skipGaps_cons hgap _)
  unfold scanEntry
  rw [hkey]
  simp only [Option.bind_eq_bind, Option.bind_some, hskip, scanValue_item hitem]
  cases assignIn p.section_ [] name item.value p.entries <;> rfl

theorem scanLines_visible {c : Char} (hgap : isGap c = false) (hcomment : c ≠ '#')
    (hbreak : c ≠ '\n') (hreturn : c ≠ '\r') (fuel : Nat) (p : Place) (cs : List Char) :
    scanLines (fuel + 1) p (c :: cs) =
      (if c = '[' then scanHeader p (c :: cs) else scanEntry p (c :: cs)).bind fun r =>
        (endLine r.2).bind fun rest => scanLines fuel r.1 rest := by
  rw [scanLines, skipGaps_cons hgap]
  split
  case h_1 heq => cases heq
  case h_2 heq => exact absurd (List.cons.inj heq).1 hcomment
  case h_3 heq => exact absurd (List.cons.inj heq).1 hbreak
  case h_4 heq => exact absurd (List.cons.inj heq).1 hreturn
  · simp only [List.head?_cons, Option.some.injEq, Option.bind_eq_bind]
    split <;> rfl

theorem scanLines_line {l : Line} (hl : l.Sound) (fuel : Nat) (p : Place) (rest : List Char) :
    scanLines (fuel + 1) p (l.chars ++ rest) = (l.place? p).bind fun q => scanLines fuel q rest := by
  cases l with
  | blank => rfl
  | header name =>
    have hshape :
        (Line.header name).chars ++ rest = '[' :: (name.toList ++ ']' :: '\n' :: rest) := by
      simp [Line.chars]
    rw [hshape, scanLines_visible rfl (by decide) (by decide) (by decide), if_pos rfl,
      scanHeader_bare p hl, Line.place?]
    cases openTable [] name p.entries <;> rfl
  | entry name item =>
    have hshape : (Line.entry name item).chars ++ rest =
        name.toList ++ ' ' :: '=' :: ' ' :: (item.chars ++ '\n' :: rest) := by
      simp [Line.chars]
    obtain ⟨hname, hitem⟩ := hl
    have hentry := scanEntry_bare p hname hitem rest
    obtain ⟨c, cs, hcs, hgap, hne⟩ := hname.head
    rw [hshape]
    rw [hcs, List.cons_append] at hentry ⊢
    rw [scanLines_visible hgap (hne '#' (by decide)) (hne '\n' (by decide)) (hne '\r' (by decide)),
      if_neg (hne '[' (by decide)), hentry, Line.place?]
    cases assignIn p.section_ [] name item.value p.entries <;> rfl

theorem Line.chars_head {l : Line} (hl : l.Sound) :
    ∃ c cs, l.chars = c :: cs ∧ c ≠ '\ufeff' := by
  cases l with
  | blank => exact ⟨'\n', [], rfl, by decide⟩
  | header name => exact ⟨'[', _, rfl, by decide⟩
  | entry name item =>
    obtain ⟨c, cs, hcs, -, hne⟩ := hl.1.head
    refine ⟨c, cs ++ [' ', '=', ' '] ++ item.chars ++ ['\n'], ?_, hne _ (by decide)⟩
    rw [Line.chars, hcs]
    rfl

theorem scanLines_lines {ls : List Line} (hls : ∀ l ∈ ls, l.Sound) {fuel : Nat}
    (hfuel : ls.length < fuel) (p : Place) :
    scanLines fuel p (ls.flatMap Line.chars) =
      (ls.foldlM Line.place? p).map (·.entries) := by
  induction ls generalizing fuel p with
  | nil =>
    obtain ⟨fuel, rfl⟩ := Nat.exists_eq_add_one_of_ne_zero (Nat.ne_zero_of_lt hfuel)
    rfl
  | cons l ls ih =>
    obtain ⟨fuel, rfl⟩ := Nat.exists_eq_add_one_of_ne_zero (Nat.ne_zero_of_lt hfuel)
    obtain ⟨hl, hls⟩ := List.forall_mem_cons.mp hls
    rw [List.flatMap_cons, scanLines_line hl, List.foldlM_cons]
    cases l.place? p with
    | none => rfl
    | some q => exact ih hls (Nat.lt_of_succ_lt_succ hfuel) q

theorem length_le_flatMap {ls : List Line} (hls : ∀ l ∈ ls, l.Sound) :
    ls.length ≤ (ls.flatMap Line.chars).length := by
  induction ls with
  | nil => exact Nat.le_refl 0
  | cons l ls ih =>
    obtain ⟨hl, hls⟩ := List.forall_mem_cons.mp hls
    obtain ⟨c, cs, hcs, -⟩ := Line.chars_head hl
    rw [List.flatMap_cons, hcs, List.cons_append, List.length_cons, List.length_cons,
      List.length_append]
    have := ih hls
    omega

theorem read?_lines {ls : List Line} (hls : ∀ l ∈ ls, l.Sound) :
    read? (String.ofList (ls.flatMap Line.chars)) =
      (ls.foldlM Line.place? ⟨[], []⟩).map (·.entries) := by
  have hmark : ∀ t, ls.flatMap Line.chars ≠ '\ufeff' :: t := by
    intro t heq
    cases ls with
    | nil => cases heq
    | cons l ls =>
      obtain ⟨c, cs, hcs, hc⟩ := Line.chars_head (hls l List.mem_cons_self)
      rw [List.flatMap_cons, hcs, List.cons_append] at heq
      exact hc (List.cons.inj heq).1
  unfold read?
  rw [String.toList_ofList]
  simp only
  exact scanLines_lines hls (Nat.lt_succ_of_le (length_le_flatMap hls)) _

/-! ## Tables -/

/-- A table of values under its name, as it is written. -/
structure Table where
  name : String
  entries : List (String × Item)

namespace Table

/-- Names need no quotes and do not repeat, and numbers fit. -/
structure Sound (t : Table) : Prop where
  name : IsBare t.name
  names : ∀ e ∈ t.entries, IsBare e.1
  fits : ∀ e ∈ t.entries, e.2.Fits
  nodup : (t.entries.map (·.1)).Nodup

def lines (t : Table) : List Line := .header t.name :: t.entries.map fun e => .entry e.1 e.2

def values (t : Table) : Entries := Sorted.ofList (t.entries.map fun e => (e.1, e.2.value))

def value (t : Table) : String × Value := (t.name, .table .header t.values)

end Table

/-- the lines of tables one below the other, with empty lines between them -/
def document (ts : List Table) : List Line := List.intercalate [.blank] (ts.map Table.lines)

theorem document_singleton (t : Table) : document [t] = t.lines := by
  rw [document, List.map_singleton, List.intercalate_singleton]

theorem document_cons_cons (t u : Table) (ts : List Table) :
    document (t :: u :: ts) = t.lines ++ .blank :: document (u :: ts) := by
  rw [document, List.map_cons, List.map_cons, List.intercalate_cons_cons, List.append_assoc]
  rfl

theorem flatMap_document (ts : List Table) :
    (document ts).flatMap Line.chars =
      List.intercalate ['\n'] (ts.map fun t => t.lines.flatMap Line.chars) := by
  induction ts with
  | nil => rfl
  | cons t ts ih =>
    cases ts with
    | nil => rw [document_singleton, List.map_singleton, List.intercalate_singleton]
    | cons u ts =>
      rw [document_cons_cons, List.flatMap_append, List.flatMap_cons, ih]
      simp only [List.map_cons, List.intercalate_cons_cons, List.append_assoc]
      rfl

theorem openTable_new {name : String} {es : Entries} (h : Sorted.find? name es = none) :
    openTable [] name es = some (Sorted.insert name (.table .header []) es) := by
  unfold openTable descend
  rw [h]

theorem assignIn_new {table name : String} (v : Value) {sub es : Entries}
    (htable : Sorted.find? table es = some (.table .header sub))
    (hname : Sorted.find? name sub = none) :
    assignIn [table] [] name v es =
      some (Sorted.insert table (.table .header (Sorted.insert name v sub)) es) := by
  have hassign : assign [] name v sub = some (Sorted.insert name v sub) := by
    unfold assign descend
    rw [hname]
    rfl
  unfold assignIn descend
  rw [htable]
  simp only
  rw [if_neg (by decide), descend, hassign]
  rfl

/-- Values under new names are put into the table that the last header named. -/
theorem foldlM_entries (table : String) (es : Entries) {kvs : List (String × Item)}
    (hnodup : (kvs.map (·.1)).Nodup) {sub : Entries}
    (hnew : ∀ e ∈ kvs, Sorted.find? e.1 sub = none) :
    (kvs.map fun e => Line.entry e.1 e.2).foldlM Line.place?
        ⟨[table], Sorted.insert table (.table .header sub) es⟩ =
      some ⟨[table], Sorted.insert table (.table .header
        ((kvs.map fun e => (e.1, e.2.value)).foldl (fun m e => Sorted.insert e.1 e.2 m) sub)) es⟩ := by
  induction kvs generalizing sub with
  | nil => rfl
  | cons e kvs ih =>
    rw [List.map_cons, List.nodup_cons] at hnodup
    obtain ⟨he, hkvs⟩ := List.forall_mem_cons.mp hnew
    have hfind : Sorted.find? table (Sorted.insert table (.table .header sub) es) =
        some (.table .header sub) := by
      rw [Sorted.find?_insert, if_pos rfl]
    have hstep :
        Line.place? ⟨[table], Sorted.insert table (.table .header sub) es⟩ (.entry e.1 e.2) =
          some ⟨[table],
            Sorted.insert table (.table .header (Sorted.insert e.1 e.2.value sub)) es⟩ := by
      rw [Line.place?, assignIn_new _ hfind he, Sorted.insert_insert]
      rfl
    have hrest : ∀ f ∈ kvs, Sorted.find? f.1 (Sorted.insert e.1 e.2.value sub) = none := by
      intro f hf
      have hne : e.1 ≠ f.1 := fun heq => hnodup.1 (heq ▸ List.mem_map_of_mem hf)
      rw [Sorted.find?_insert, if_neg hne, hkvs f hf]
    rw [List.map_cons, List.foldlM_cons, hstep, List.map_cons, List.foldl_cons]
    exact ih hnodup.2 hrest

theorem foldlM_lines {t : Table} (ht : t.Sound) {p : Place}
    (hnew : Sorted.find? t.name p.entries = none) :
    t.lines.foldlM Line.place? p =
      some ⟨[t.name], Sorted.insert t.name (.table .header t.values) p.entries⟩ := by
  rw [Table.lines, List.foldlM_cons, Line.place?, openTable_new hnew]
  exact foldlM_entries t.name p.entries ht.nodup fun _ _ => rfl

theorem foldlM_document {ts : List Table} (hts : ∀ t ∈ ts, t.Sound)
    (hnodup : (ts.map (·.name)).Nodup) {p : Place}
    (hnew : ∀ t ∈ ts, Sorted.find? t.name p.entries = none) :
    ((document ts).foldlM Line.place? p).map (·.entries) =
      some ((ts.map Table.value).foldl (fun m e => Sorted.insert e.1 e.2 m) p.entries) := by
  induction ts generalizing p with
  | nil => rfl
  | cons t ts ih =>
    obtain ⟨ht, hts⟩ := List.forall_mem_cons.mp hts
    obtain ⟨hnew_t, hnew⟩ := List.forall_mem_cons.mp hnew
    rw [List.map_cons, List.nodup_cons] at hnodup
    have hrest : ∀ u ∈ ts, Sorted.find? u.name
        (Sorted.insert t.name (.table .header t.values) p.entries) = none := by
      intro u hu
      have hne : t.name ≠ u.name := fun heq => hnodup.1 (heq ▸ List.mem_map_of_mem hu)
      rw [Sorted.find?_insert, if_neg hne, hnew u hu]
    cases ts with
    | nil =>
      rw [document_singleton, foldlM_lines ht hnew_t]
      rfl
    | cons u ts =>
      rw [document_cons_cons, List.foldlM_append, foldlM_lines ht hnew_t, Option.bind_eq_bind,
        Option.bind_some, List.foldlM_cons]
      exact ih hts hnodup.2 hrest

theorem Table.Sound.lines {t : Table} (ht : t.Sound) : ∀ l ∈ t.lines, l.Sound := by
  refine List.forall_mem_cons.mpr ⟨ht.name, fun l hl => ?_⟩
  obtain ⟨e, he, rfl⟩ := List.mem_map.mp hl
  exact ⟨ht.names e he, ht.fits e he⟩

theorem sound_document {ts : List Table} (hts : ∀ t ∈ ts, t.Sound) :
    ∀ l ∈ document ts, l.Sound := by
  induction ts with
  | nil => exact nofun
  | cons t ts ih =>
    obtain ⟨ht, hts⟩ := List.forall_mem_cons.mp hts
    cases ts with
    | nil => exact document_singleton t ▸ ht.lines
    | cons u ts =>
      rw [document_cons_cons]
      exact List.forall_mem_append.mpr ⟨ht.lines, List.forall_mem_cons.mpr ⟨trivial, ih hts⟩⟩

theorem read?_document {ts : List Table} (hts : ∀ t ∈ ts, t.Sound)
    (hnodup : (ts.map (·.name)).Nodup) :
    read? (String.ofList ((document ts).flatMap Line.chars)) =
      some (Sorted.ofList (ts.map Table.value)) := by
  rw [read?_lines (sound_document hts)]
  exact foldlM_document hts hnodup fun _ _ => rfl

end DeviceHub.Toml
