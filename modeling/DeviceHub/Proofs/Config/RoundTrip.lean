import DeviceHub.Config.Setting
import DeviceHub.Proofs.Toml.Document

/-!
# A configuration is read back from its TOML document

* `Setting.item?`            what is written for a setting;
* `Config.tables`            the tables of the document;
* `Config.toml?_of_fits`     the document of a configuration whose numbers fit;
* `Setting.copy`             a configuration with a setting of another one, if it is given;
* `Config.copy_sections`     all settings of a configuration make it out of the default one;
* `Config.toml_reads_back`   what is written is read back, and written when its numbers have at most
                             63 bits.
-/

namespace DeviceHub

open Toml (Item Line Table document flatMap_document read?_document)

/-- what is written for a setting; nothing for an optional one without a value -/
def Setting.item? (s : Setting) (c : Config) : Option Item :=
  match s.access with
  | .text get _ => some (.text (get c))
  | .optional get _ => (get c).map .text
  | .number get _ => some (.number (get c).toNat)
  | .flag get _ => some (.flag (get c))

namespace Config

/-- what is written for settings, under their names -/
def given (c : Config) (ss : List Setting) : List (String × Item) :=
  ss.filterMap fun s => (s.item? c).map fun i => (s.name, i)

def table (c : Config) (s : String × List Setting) : Table := ⟨s.1, c.given s.2⟩

def tables (c : Config) : List Table := sections.map c.table

def numbers (c : Config) : List UInt64 :=
  [c.mqtt.keepAliveSecs, c.telemetry.minWriteMs, c.telemetry.softCapacity, c.influx.writeTimeoutMs,
    c.influx.queueCapacity, c.influx.batchSize, c.commands.defaultTimeoutMs,
    c.commands.publishTimeoutMs, c.reconnect.initialMs, c.reconnect.maxMs]

section
variable {c : Config} {s : Setting} {ss : List Setting}

theorem given_cons_none (h : s.item? c = none) : c.given (s :: ss) = c.given ss :=
  List.filterMap_cons_none (by rw [h]; rfl)

theorem given_cons_some {i : Item} (h : s.item? c = some i) :
    c.given (s :: ss) = (s.name, i) :: c.given ss :=
  List.filterMap_cons_some (by rw [h]; rfl)

theorem mem_given {e : String × Item} :
    e ∈ c.given ss ↔ ∃ s ∈ ss, s.name = e.1 ∧ s.item? c = some e.2 := by
  unfold given
  rw [List.mem_filterMap]
  refine exists_congr fun s => and_congr_right fun _ => ?_
  rw [Option.map_eq_some_iff]
  constructor
  · rintro ⟨i, hi, rfl⟩
    exact ⟨rfl, hi⟩
  · rintro ⟨hname, hi⟩
    exact ⟨e.2, hi, Prod.ext hname rfl⟩

theorem not_mem_given (h : s.name ∉ ss.map (·.name)) : s.name ∉ (c.given ss).map (·.1) := by
  intro hmem
  obtain ⟨e, he, heq⟩ := List.mem_map.mp hmem
  obtain ⟨x, hx, hname, -⟩ := mem_given.mp he
  exact h (heq ▸ hname ▸ List.mem_map_of_mem hx)

theorem nodup_given (h : (ss.map (·.name)).Nodup) : ((c.given ss).map (·.1)).Nodup := by
  induction ss with
  | nil => exact List.nodup_nil
  | cons s ss ih =>
    rw [List.map_cons, List.nodup_cons] at h
    cases hi : s.item? c with
    | none =>
      rw [given_cons_none hi]
      exact ih h.2
    | some i =>
      rw [given_cons_some hi, List.map_cons, List.nodup_cons]
      exact ⟨not_mem_given h.1, ih h.2⟩

theorem find?_given (h : (ss.map (·.name)).Nodup) (hs : s ∈ ss) :
    Sorted.find? s.name (c.given ss) = s.item? c := by
  induction ss with
  | nil => cases hs
  | cons x ss ih =>
    rw [List.map_cons, List.nodup_cons] at h
    rcases List.mem_cons.mp hs with rfl | hs
    · cases hi : s.item? c with
      | none =>
        rw [given_cons_none hi, ← Option.not_isSome_iff_eq_none, Sorted.isSome_find?]
        exact not_mem_given h.1
      | some i => rw [given_cons_some hi, Sorted.find?_cons, if_pos rfl]
    · have hne : x.name ≠ s.name := fun heq => h.1 (heq ▸ List.mem_map_of_mem hs)
      cases hi : x.item? c with
      | none =>
        rw [given_cons_none hi]
        exact ih h.2 hs
      | some i =>
        rw [given_cons_some hi, Sorted.find?_cons, if_neg hne]
        exact ih h.2 hs

end

/-! ## Writing -/

theorem mapM_eq_some {α β : Type} {f : α → Option β} {g : α → β} {l : List α}
    (h : ∀ x ∈ l, f x = some (g x)) : l.mapM f = some (l.map g) := by
  induction l with
  | nil => rfl
  | cons x l ih =>
    obtain ⟨hx, hl⟩ := List.forall_mem_cons.mp h
    rw [List.mapM_cons, hx, ih hl]
    rfl

theorem isSome_of_mapM {α β : Type} {f : α → Option β} {l : List α} (h : (l.mapM f).isSome) :
    ∀ x ∈ l, (f x).isSome := by
  induction l with
  | nil => exact nofun
  | cons x l ih =>
    rw [List.mapM_cons] at h
    cases hx : f x with
    | none =>
      rw [hx] at h
      cases h
    | some y =>
      cases hl : l.mapM f with
      | none =>
        rw [hx, hl] at h
        cases h
      | some ys => exact List.forall_mem_cons.mpr ⟨by rw [hx]; rfl, ih (by rw [hl]; rfl)⟩

theorem tomlLine?_of_fits (c : Config) (s : Setting) (h : ∀ i ∈ s.item? c, i.Fits) :
    c.tomlLine? s = some (((s.item? c).toList.map (Line.entry s.name)).flatMap Line.chars) := by
  obtain ⟨name, access⟩ := s
  unfold tomlLine?
  cases access with
  | text get set => simp [Setting.item?, Line.chars, Item.chars]
  | optional get set =>
    cases hget : get c with
    | none => simp [Setting.item?, hget]
    | some v => simp [Setting.item?, hget, Line.chars, Item.chars]
  | number get set =>
    have hfits : (get c).toNat < 0x8000000000000000 := h _ rfl
    simp [Setting.item?, Line.chars, Item.chars, hfits]
  | flag get set => simp [Setting.item?, Line.chars, Item.chars]

theorem fits_of_tomlLine? (c : Config) (s : Setting) (h : (c.tomlLine? s).isSome) :
    ∀ i ∈ s.item? c, i.Fits := by
  obtain ⟨name, access⟩ := s
  intro i hi
  cases access with
  | text get set =>
    cases hi
    exact trivial
  | optional get set =>
    obtain ⟨a, -, rfl⟩ := Option.map_eq_some_iff.mp (show (get c).map Item.text = some i from hi)
    exact trivial
  | number get set =>
    cases hi
    by_contra hfits
    have hnone : c.tomlLine? ⟨name, .number get set⟩ = none := if_neg hfits
    rw [hnone] at h
    cases h
  | flag get set =>
    cases hi
    exact trivial

theorem flatten_lines (c : Config) (ss : List Setting) :
    (ss.map fun s => ((s.item? c).toList.map (Line.entry s.name)).flatMap Line.chars).flatten =
      ((c.given ss).map fun e => Line.entry e.1 e.2).flatMap Line.chars := by
  induction ss with
  | nil => rfl
  | cons s ss ih =>
    rw [List.map_cons, List.flatten_cons, ih]
    cases hi : s.item? c with
    | none =>
      rw [given_cons_none hi]
      rfl
    | some i =>
      rw [given_cons_some hi, List.map_cons, List.flatMap_cons]
      simp only [Option.toList_some, List.map_singleton, List.flatMap_singleton]

theorem tomlSection?_of_fits (c : Config) (s : String × List Setting)
    (h : ∀ x ∈ s.2, ∀ i ∈ x.item? c, i.Fits) :
    c.tomlSection? s = some ((c.table s).lines.flatMap Line.chars) := by
  unfold tomlSection?
  rw [mapM_eq_some fun x hx => c.tomlLine?_of_fits x (h x hx), Option.bind_eq_bind,
    Option.bind_some, flatten_lines]
  rfl

/-- Everything that is written for a configuration fits. -/
def Fits (c : Config) : Prop := ∀ s ∈ sections, ∀ x ∈ s.2, ∀ i ∈ x.item? c, i.Fits

theorem fits_iff (c : Config) : c.Fits ↔ ∀ n ∈ c.numbers, n.toNat < 0x8000000000000000 := by
  simp [Fits, sections, mqttSettings, telemetrySettings, influxSettings, httpSettings,
    commandSettings, reconnectSettings, Setting.item?, Item.Fits, numbers,
    and_assoc]

theorem toml?_of_fits {c : Config} (h : c.Fits) :
    c.toml? = some (String.ofList ((document c.tables).flatMap Line.chars)) := by
  unfold toml?
  rw [mapM_eq_some fun s hs => c.tomlSection?_of_fits s (h s hs), flatMap_document, tables,
    List.map_map]
  rfl

theorem fits_of_toml? {c : Config} (h : c.toml?.isSome) : c.Fits := by
  have hsections : (sections.mapM c.tomlSection?).isSome := by
    unfold toml? at h
    cases hparts : sections.mapM c.tomlSection? with
    | none =>
      rw [hparts] at h
      cases h
    | some parts => rfl
  intro s hs x hx
  have hsection : (c.tomlSection? s).isSome := isSome_of_mapM hsections s hs
  have hlines : (s.2.mapM c.tomlLine?).isSome := by
    unfold tomlSection? at hsection
    cases hlines : s.2.mapM c.tomlLine? with
    | none =>
      rw [hlines] at hsection
      cases hsection
    | some lines => rfl
  exact fits_of_tomlLine? c x (isSome_of_mapM hlines x hx)

/-! ## Reading -/

end Config

/-- a configuration `u` with a setting of `c`, if `c` gives it -/
def Setting.copy (c u : Config) (s : Setting) : Config :=
  match s.access with
  | .text get set => set (get c) u
  | .optional get set =>
    match get c with
    | some a => set (some a) u
    | none => u
  | .number get set => set (get c) u
  | .flag get set => set (get c) u

namespace Config

theorem applyToml_item (c u : Config) (s : Setting) {i : Item} (hi : s.item? c = some i) :
    u.applyToml s i.value = some (s.copy c u) := by
  obtain ⟨name, access⟩ := s
  cases access with
  | text get set =>
    cases hi
    rfl
  | optional get set =>
    obtain ⟨a, ha, rfl⟩ := Option.map_eq_some_iff.mp (show (get c).map Item.text = some i from hi)
    simp [applyToml, Setting.copy, ha, Item.value]
  | number get set =>
    cases hi
    simp [applyToml, Setting.copy, Item.value]
  | flag get set =>
    cases hi
    rfl

theorem copy_of_item?_none (c u : Config) (s : Setting) (hi : s.item? c = none) :
    s.copy c u = u := by
  obtain ⟨name, access⟩ := s
  cases access with
  | optional get set =>
    have hget : get c = none := Option.map_eq_none_iff.mp hi
    simp [Setting.copy, hget]
  | _ => cases hi

theorem applyTomlEntries_copy (c : Config) {es : Toml.Entries} {ss : List Setting}
    (hes : ∀ s ∈ ss, Sorted.find? s.name es = (s.item? c).map Item.value) (u : Config) :
    applyTomlEntries es u ss = some (ss.foldl (Setting.copy c) u) := by
  induction ss generalizing u with
  | nil => rfl
  | cons s ss ih =>
    obtain ⟨hs, hss⟩ := List.forall_mem_cons.mp hes
    rw [applyTomlEntries, hs, List.foldl_cons]
    cases hi : s.item? c with
    | none =>
      rw [copy_of_item?_none c u s hi]
      exact ih hss u
    | some i =>
      simp only [Option.map_some, applyToml_item c u s hi, Option.bind_eq_bind, Option.bind_some]
      exact ih hss _

theorem find?_values {c : Config} {s : String × List Setting} (h : (s.2.map (·.name)).Nodup)
    {x : Setting} (hx : x ∈ s.2) :
    Sorted.find? x.name (c.table s).values = (x.item? c).map Item.value := by
  have hnodup : (((c.given s.2).map fun e => (e.1, e.2.value)).map (·.1)).Nodup := by
    rw [List.map_map]
    exact nodup_given h
  show Sorted.find? x.name (Sorted.ofList ((c.given s.2).map fun e => (e.1, e.2.value))) = _
  rw [Sorted.find?_ofList hnodup, Sorted.find?_map, find?_given h hx]

theorem applyTomlSections_copy (c : Config) {es : Toml.Entries} {ss : List (String × List Setting)}
    (hnames : ∀ s ∈ ss, (s.2.map (·.name)).Nodup)
    (hes : ∀ s ∈ ss, Sorted.find? s.1 es = some (c.table s).value.2) (u : Config) :
    applyTomlSections es u ss = some (ss.foldl (fun u s => s.2.foldl (Setting.copy c) u) u) := by
  induction ss generalizing u with
  | nil => rfl
  | cons s ss ih =>
    obtain ⟨hs, hss⟩ := List.forall_mem_cons.mp hes
    obtain ⟨hname, hnames⟩ := List.forall_mem_cons.mp hnames
    have happly : u.applyTomlSection s.2 (c.table s).value.2 =
        some (s.2.foldl (Setting.copy c) u) :=
      applyTomlEntries_copy c (fun x hx => find?_values hname hx) u
    rw [applyTomlSections, hs, List.foldl_cons]
    simp only [happly, Option.bind_eq_bind, Option.bind_some]
    exact ih hnames hss _

/-- All settings of a configuration make it out of the default one. -/
theorem copy_sections (c : Config) :
    sections.foldl (fun u s => s.2.foldl (Setting.copy c) u) {} = c := by
  obtain ⟨⟨url, client, user, password, keep, clean⟩, t, ⟨iurl, token, org, bucket, w, q, b⟩, h, k,
    r⟩ := c
  cases user with
  | none =>
    cases password with
    | none => cases token <;> rfl
    | some password => cases token <;> rfl
  | some user =>
    cases password with
    | none => cases token <;> rfl
    | some password => cases token <;> rfl

theorem sections_bare : ∀ s ∈ sections, Toml.IsBare s.1 ∧ ∀ x ∈ s.2, Toml.IsBare x.name := by
  decide

theorem sections_nodup :
    (sections.map (·.1)).Nodup ∧ ∀ s ∈ sections, (s.2.map (·.name)).Nodup := by
  decide

theorem sound_tables {c : Config} (h : c.Fits) : ∀ t ∈ c.tables, t.Sound := by
  intro t ht
  obtain ⟨s, hs, rfl⟩ := List.mem_map.mp ht
  obtain ⟨hname, hnames⟩ := sections_bare s hs
  refine ⟨hname, fun e he => ?_, fun e he => ?_, nodup_given (sections_nodup.2 s hs)⟩
  · obtain ⟨x, hx, hxe, -⟩ := mem_given.mp he
    exact hxe ▸ hnames x hx
  · obtain ⟨x, hx, -, hi⟩ := mem_given.mp he
    exact h s hs x hx e.2 hi

theorem tables_names (c : Config) : c.tables.map (·.name) = sections.map (·.1) := by
  rw [tables, List.map_map]
  rfl

theorem ofToml?_of_fits {c : Config} (h : c.Fits) :
    ofToml? (String.ofList ((document c.tables).flatMap Line.chars)) = some c := by
  have hnames : (c.tables.map (·.name)).Nodup := tables_names c ▸ sections_nodup.1
  have hvalues : ((c.tables.map Table.value).map (·.1)).Nodup := by
    rw [List.map_map]
    exact hnames
  unfold ofToml?
  rw [read?_document (sound_tables h) hnames, Option.bind_eq_bind, Option.bind_some,
    applyTomlSections_copy c sections_nodup.2, copy_sections]
  intro s hs
  rw [Sorted.find?_ofList hvalues]
  exact Sorted.find?_of_mem hvalues (List.mem_map_of_mem (List.mem_map_of_mem hs))

/-- A configuration has a TOML document exactly when all its numbers have at most 63 bits, and then it
is read back from this document, whatever its texts hold. -/
theorem toml_reads_back (c : Config) :
    (c.toml?.isSome ↔ ∀ n ∈ c.numbers, n.toNat < 0x8000000000000000) ∧
      ∀ s, c.toml? = some s → ofToml? s = some c := by
  constructor
  · rw [← fits_iff]
    exact ⟨fits_of_toml?, fun h => by rw [toml?_of_fits h]; rfl⟩
  · intro s hs
    have hfits : c.Fits := fits_of_toml? (by rw [hs]; rfl)
    rw [toml?_of_fits hfits] at hs
    cases hs
    exact ofToml?_of_fits hfits

theorem toml_reads_back_quotes :
    let c : Config :=
      { mqtt := { clientId := "\x27\x22", username := some "\x22\x22\x22\x27\x27\x27\\\n\r\t\x00\x7f" }
        influx := { token := some "", org := "\n\x22\x22", batchSize := 0x7fffffffffffffff } }
    let d : Config := { c with reconnect := { maxMs := 0x8000000000000000 } }
    (∃ s, c.toml? = some s ∧ ofToml? s = some c) ∧ d.toml?.isSome = false := by
  intro c d
  have hall : c.numbers.all (fun n => n.toNat < 0x8000000000000000) = true := by decide
  have hfits : ∀ n ∈ c.numbers, n.toNat < 0x8000000000000000 := fun n hn =>
    of_decide_eq_true (List.all_eq_true.mp hall n hn)
  have hsome : c.toml?.isSome := (toml_reads_back c).1.mpr hfits
  obtain ⟨s, hs⟩ := Option.isSome_iff_exists.mp hsome
  refine ⟨⟨s, hs, (toml_reads_back c).2 s hs⟩, Bool.eq_false_iff.mpr fun h => ?_⟩
  exact absurd ((toml_reads_back d).1.mp h 0x8000000000000000 (by decide)) (by decide)

end Config

end DeviceHub
