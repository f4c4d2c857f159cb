import DeviceHub.Proofs.Config.RoundTrip
import DeviceHub.Proofs.Toml.Integers

/-!
# What a document gives for the settings

* `Config.settings`, `Config.row`      all settings, and what a configuration has for each of them;
* `Setting.Fills`, `settings_fill`     a setting that is put in changes its own place of the row;
* `Config.ext_items`                   the settings make the configuration;
* `Setting.Accepts`                    the values of a setting's kind;
* `Toml.inSection?`, `inDocument?`     what a document gives for a setting;
* `Config.Reads`                       a document gives sections, and values of the right kinds;
* `Config.isSome_applyTomlSections`, `value?_applyTomlSections`   a configuration takes what such a
                                       document gives, and keeps its other settings.
-/

namespace DeviceHub

open Toml (Item)

theorem Toml.Item.value_injective : Function.Injective Item.value := by
  intro i j h
  cases i <;> cases j <;> cases h <;> rfl

/-- what a configuration has for a setting, as a value; nothing for an optional one that is missing -/
def Setting.value? (s : Setting) (c : Config) : Option Toml.Value := (s.item? c).map Item.value

/-- The values of a setting's kind. -/
def Setting.Accepts (s : Setting) (v : Toml.Value) : Prop :=
  match s.access, v with
  | .text _ _, .text _ => True
  | .optional _ _, .text _ => True
  | .number _ _, .int i => 0 ≤ i
  | .flag _ _, .bool _ => True
  | _, _ => False

namespace Config

/-! ## Settings side by side -/

def settings : List Setting := sections.flatMap (·.2)

/-- what a configuration has for each setting -/
def row (c : Config) : List (Option Item) := settings.map fun s => s.item? c

theorem mem_settings {s : Setting} : s ∈ settings ↔ ∃ sec ∈ sections, s ∈ sec.2 :=
  List.mem_flatMap

theorem settings_nodup : (settings.map (·.name)).Nodup := by decide

theorem getElem?_row {s : Setting} {place : Nat} (hs : settings[place]? = some s) (c : Config) :
    c.row[place]? = some (s.item? c) := by
  unfold row
  rw [List.getElem?_map, hs, Option.map_some]

end Config

/-- A setting is at a place of the row, and changes no other place. -/
def Setting.Fills (s : Setting) (place : Nat) : Prop :=
  match s.access with
  | .text _ set => ∀ a c, (set a c).row = c.row.set place (some (.text a))
  | .optional _ set => ∀ a c, (set a c).row = c.row.set place (a.map .text)
  | .number _ set => ∀ a c, (set a c).row = c.row.set place (some (.number a.toNat))
  | .flag _ set => ∀ a c, (set a c).row = c.row.set place (some (.flag a))

namespace Config

theorem settings_fill : ∀ p ∈ settings.zipIdx, p.1.Fills p.2 := by
  intro p hp
  fin_cases hp
  all_goals exact fun _ _ => rfl

theorem copy_congr {c c' : Config} {s : Setting} (h : s.item? c = s.item? c') (u : Config) :
    s.copy c u = s.copy c' u := by
  obtain ⟨name, access⟩ := s
  cases access with
  | text get set =>
    have hget : get c = get c' := Item.text.inj (Option.some.inj h)
    simp only [Setting.copy, hget]
  | optional get set =>
    have hget : get c = get c' := Option.map_injective (fun _ _ => Item.text.inj) h
    simp only [Setting.copy, hget]
  | number get set =>
    have hget : get c = get c' := UInt64.toNat_inj.mp (Item.number.inj (Option.some.inj h))
    simp only [Setting.copy, hget]
  | flag get set =>
    have hget : get c = get c' := Item.flag.inj (Option.some.inj h)
    simp only [Setting.copy, hget]

/-- The settings make the configuration. -/
theorem ext_items {c c' : Config} (h : ∀ s ∈ settings, s.item? c = s.item? c') : c = c' := by
  rw [← copy_sections c, ← copy_sections c']
  refine List.foldl_ext _ _ _ fun u sec hsec => List.foldl_ext _ _ _ fun u s hs => ?_
  exact copy_congr (h s (mem_settings.mpr ⟨sec, hsec, hs⟩)) u

theorem ext_values {c c' : Config} (h : ∀ s ∈ settings, s.value? c = s.value? c') : c = c' :=
  ext_items fun s hs => Option.map_injective Item.value_injective (h s hs)

/-! ## One setting -/

theorem isSome_applyToml (c : Config) (s : Setting) (v : Toml.Value) :
    (c.applyToml s v).isSome ↔ s.Accepts v := by
  obtain ⟨name, access⟩ := s
  cases access with
  | number get set =>
    cases v with
    | int i =>
      show (if 0 ≤ i then some _ else none).isSome ↔ 0 ≤ i
      split <;> simp [*]
    | _ => exact iff_of_false Bool.false_ne_true id
  | flag get set =>
    cases v with
    | bool b => exact iff_of_true rfl trivial
    | _ => exact iff_of_false Bool.false_ne_true id
  | _ get set =>
    cases v with
    | text a => exact iff_of_true rfl trivial
    | _ => exact iff_of_false Bool.false_ne_true id

theorem row_applyToml {c c' : Config} {s : Setting} {place : Nat} (hs : s.Fills place)
    {v : Toml.Value} (hv : v.IsBounded) (h : c.applyToml s v = some c') :
    ∃ i : Item, i.value = v ∧ c'.row = c.row.set place (some i) := by
  obtain ⟨name, access⟩ := s
  cases access with
  | text get set =>
    cases v with
    | text a =>
      cases h
      exact ⟨.text a, rfl, hs a c⟩
    | _ => cases h
  | optional get set =>
    cases v with
    | text a =>
      cases h
      exact ⟨.text a, rfl, hs (some a) c⟩
    | _ => cases h
  | number get set =>
    cases v with
    | int i =>
      replace h : (if 0 ≤ i then some (set (UInt64.ofNat i.toNat) c) else none) = some c' := h
      cases hv with
      | int hmin hmax =>
        split at h
        · rename_i hzero
          cases h
          refine ⟨.number (UInt64.ofNat i.toNat).toNat, ?_, hs _ c⟩
          rw [UInt64.toNat_ofNat_of_lt' (by unfold UInt64.size; omega), Item.value,
            Int.toNat_of_nonneg hzero]
        · cases h
    | _ => cases h
  | flag get set =>
    cases v with
    | bool b =>
      cases h
      exact ⟨.flag b, rfl, hs b c⟩
    | _ => cases h

theorem value?_applyToml {c c' : Config} {s : Setting} (hs : s ∈ settings) {v : Toml.Value}
    (hv : v.IsBounded) (h : c.applyToml s v = some c') :
    s.value? c' = some v ∧
      ∀ s' ∈ settings, s'.name ≠ s.name → s'.value? c' = s'.value? c := by
  obtain ⟨place, hplace⟩ := List.mem_iff_getElem?.mp hs
  have hfills := settings_fill (s, place) (List.mem_zipIdx_iff_getElem?.mpr hplace)
  obtain ⟨i, rfl, hrow⟩ := row_applyToml hfills hv h
  constructor
  · have hlength : place < c.row.length := by
      unfold row
      rw [List.length_map]
      exact (List.getElem?_eq_some_iff.mp hplace).1
    have hitem := getElem?_row hplace c'
    rw [hrow, List.getElem?_set_self hlength] at hitem
    unfold Setting.value?
    rw [← Option.some.inj hitem, Option.map_some]
  · intro s' hs' hname
    obtain ⟨place', hplace'⟩ := List.mem_iff_getElem?.mp hs'
    have hne : place ≠ place' := by
      rintro rfl
      exact hname (congrArg Setting.name (Option.some.inj (hplace'.symm.trans hplace)))
    have hitem := getElem?_row hplace' c'
    rw [hrow, List.getElem?_set_ne hne, getElem?_row hplace' c] at hitem
    unfold Setting.value?
    rw [Option.some.inj hitem]

/-! ## Several settings -/

def put? (c : Config) : Setting × Option Toml.Value → Option Config
  | (s, some v) => c.applyToml s v
  | (_, none) => some c

theorem foldlM_put?_of_none {ps : List (Setting × Option Toml.Value)} (h : ∀ p ∈ ps, p.2 = none)
    (c : Config) : ps.foldlM put? c = some c := by
  induction ps with
  | nil => rfl
  | cons p ps ih =>
    obtain ⟨hp, hps⟩ := List.forall_mem_cons.mp h
    obtain ⟨s, v⟩ := p
    cases hp
    exact ih hps

theorem isSome_foldlM_put? (c : Config) (ps : List (Setting × Option Toml.Value)) :
    (ps.foldlM put? c).isSome ↔ ∀ p ∈ ps, ∀ v, p.2 = some v → p.1.Accepts v := by
  induction ps generalizing c with
  | nil => exact iff_of_true rfl nofun
  | cons p ps ih =>
    obtain ⟨s, v⟩ := p
    rw [List.foldlM_cons, List.forall_mem_cons]
    cases v with
    | none => exact (ih c).trans (and_iff_right nofun).symm
    | some v =>
      have hv : (∀ w, some v = some w → s.Accepts w) ↔ (c.applyToml s v).isSome := by
        rw [isSome_applyToml]
        exact ⟨fun h => h v rfl, fun h w hw => Option.some.inj hw ▸ h⟩
      rw [hv, Option.bind_eq_bind, put?]
      cases c.applyToml s v with
      | none => exact iff_of_false Bool.false_ne_true fun h => Bool.false_ne_true h.1
      | some c₁ => exact (ih c₁).trans (and_iff_right rfl).symm

theorem value?_put? {c c' : Config} {p : Setting × Option Toml.Value} (hp : p.1 ∈ settings)
    (hbound : ∀ v, p.2 = some v → v.IsBounded) (h : c.put? p = some c') :
    p.1.value? c' = p.2.or (p.1.value? c) ∧
      ∀ s ∈ settings, s.name ≠ p.1.name → s.value? c' = s.value? c := by
  obtain ⟨s, v⟩ := p
  cases v with
  | none =>
    cases h
    exact ⟨rfl, fun _ _ _ => rfl⟩
  | some v => exact value?_applyToml hp (hbound v rfl) h

theorem value?_foldlM_put? {c c' : Config} {ps : List (Setting × Option Toml.Value)}
    (hmem : ∀ p ∈ ps, p.1 ∈ settings) (hnodup : (ps.map (·.1.name)).Nodup)
    (hbounded : ∀ p ∈ ps, ∀ v, p.2 = some v → v.IsBounded) (h : ps.foldlM put? c = some c') :
    (∀ p ∈ ps, p.1.value? c' = p.2.or (p.1.value? c)) ∧
      ∀ s ∈ settings, s.name ∉ ps.map (·.1.name) → s.value? c' = s.value? c := by
  induction ps generalizing c with
  | nil =>
    cases h
    exact ⟨nofun, fun _ _ _ => rfl⟩
  | cons p ps ih =>
    obtain ⟨hp, hps⟩ := List.forall_mem_cons.mp hmem
    obtain ⟨hbound, hbounds⟩ := List.forall_mem_cons.mp hbounded
    rw [List.map_cons, List.nodup_cons] at hnodup
    obtain ⟨c₁, hput, hrest⟩ := Option.bind_eq_some_iff.mp h
    obtain ⟨hown, hother⟩ := value?_put? hp hbound hput
    obtain ⟨hin, hout⟩ := ih hps hnodup.2 hbounds hrest
    constructor
    · intro q hq
      rcases List.mem_cons.mp hq with rfl | hq
      · rw [hout q.1 hp hnodup.1, hown]
      · have hne : q.1.name ≠ p.1.name := fun heq => hnodup.1 (heq ▸ List.mem_map_of_mem hq)
        rw [hin q hq, hother q.1 (hps q hq) hne]
    · intro s hs hname
      rw [List.map_cons, List.mem_cons, not_or] at hname
      rw [hout s hs hname.2, hother s hs hname.1]

end Config

/-! ## What a document gives -/

namespace Toml

/-- A section is a table, an array of its settings in their order, or a date, which gives nothing. -/
def IsSection : Value → Prop
  | .table _ _ => True
  | .array _ => True
  | .tables _ => True
  | .date _ => True
  | _ => False

/-- what a section gives for the setting at a place -/
def inSection? (place : Nat) (name : String) : Value → Option Value
  | .table _ es => Sorted.find? name es
  | .array items => items[place]?
  | .tables elements => (elements.map (.table .header))[place]?
  | _ => none

def inDocument? (es : Entries) (sec : String) (place : Nat) (name : String) : Option Value :=
  (Sorted.find? sec es).bind (inSection? place name)

theorem Value.IsBounded.inSection? {v : Value} (hv : v.IsBounded) {place : Nat} {name : String}
    {w : Value} (h : Toml.inSection? place name v = some w) : w.IsBounded := by
  cases hv with
  | table _ hes => exact IsBoundedTable.find? hes h
  | array hitems => exact hitems w (List.mem_of_getElem? h)
  | tables helements =>
    obtain ⟨es, hes, rfl⟩ := List.mem_map.mp (List.mem_of_getElem? h)
    exact .table _ (helements es hes)
  | _ => cases h

theorem IsBoundedTable.inDocument? {es : Entries} (hes : IsBoundedTable es) {sec name : String}
    {place : Nat} {w : Value} (h : Toml.inDocument? es sec place name = some w) : w.IsBounded := by
  obtain ⟨v, hv, hw⟩ := Option.bind_eq_some_iff.mp h
  exact (hes.find? hv).inSection? hw

end Toml

namespace Config

open Toml (IsSection inSection? inDocument?)

/-- what a document gives for the settings of a section -/
def gifts (es : Toml.Entries) (sec : String × List Setting) : List (Setting × Option Toml.Value) :=
  sec.2.mapIdx fun place s => (s, inDocument? es sec.1 place s.name)

/-- The configuration can be read from a document: what it gives for sections are sections, and what
they give for settings are values of their kinds. -/
def Reads (es : Toml.Entries) : Prop :=
  ∀ sec ∈ sections, (∀ v, Sorted.find? sec.1 es = some v → IsSection v) ∧
    ∀ place s, sec.2[place]? = some s →
      ∀ v, inDocument? es sec.1 place s.name = some v → s.Accepts v

theorem mem_gifts {es : Toml.Entries} {sec : String × List Setting}
    {p : Setting × Option Toml.Value} :
    p ∈ gifts es sec ↔
      ∃ place s, sec.2[place]? = some s ∧ (s, inDocument? es sec.1 place s.name) = p := by
  unfold gifts
  rw [List.mem_mapIdx]
  constructor
  · rintro ⟨place, hplace, rfl⟩
    exact ⟨place, _, List.getElem?_eq_getElem hplace, rfl⟩
  · rintro ⟨place, s, hs, rfl⟩
    obtain ⟨hplace, rfl⟩ := List.getElem?_eq_some_iff.mp hs
    exact ⟨place, hplace, rfl⟩

theorem applyTomlEntries_eq (es : Toml.Entries) (c : Config) (ss : List Setting) :
    applyTomlEntries es c ss =
      (ss.mapIdx fun _ s => (s, Sorted.find? s.name es)).foldlM put? c := by
  induction ss generalizing c with
  | nil => rfl
  | cons s ss ih =>
    rw [applyTomlEntries, List.mapIdx_cons, List.foldlM_cons]
    cases Sorted.find? s.name es with
    | none => exact ih c
    | some v =>
      show (c.applyToml s v).bind _ = (c.applyToml s v).bind _
      exact congrArg _ (funext ih)

theorem applyTomlItems_eq (c : Config) (ss : List Setting) (vs : List Toml.Value) :
    applyTomlItems c ss vs = (ss.mapIdx fun place s => (s, vs[place]?)).foldlM put? c := by
  induction ss generalizing c vs with
  | nil => cases vs <;> rfl
  | cons s ss ih =>
    cases vs with
    | nil =>
      have hnone : ∀ p ∈ (s :: ss).mapIdx fun place s => (s, ([] : List Toml.Value)[place]?),
          p.2 = none := by
        intro p hp
        obtain ⟨place, hplace, rfl⟩ := List.mem_mapIdx.mp hp
        rfl
      rw [foldlM_put?_of_none hnone]
      rfl
    | cons v vs =>
      rw [applyTomlItems, List.mapIdx_cons, List.foldlM_cons]
      show (c.applyToml s v).bind _ = (c.applyToml s v).bind _
      exact congrArg _ (funext fun c₁ => ih c₁ vs)

theorem applyTomlSection_eq (c : Config) (ss : List Setting) {v : Toml.Value} (hv : IsSection v) :
    c.applyTomlSection ss v =
      (ss.mapIdx fun place s => (s, inSection? place s.name v)).foldlM put? c := by
  cases v with
  | table origin es => exact applyTomlEntries_eq es c ss
  | array items => exact applyTomlItems_eq c ss items
  | tables elements => exact applyTomlItems_eq c ss _
  | date s =>
    refine (foldlM_put?_of_none (fun p hp => ?_) c).symm
    obtain ⟨place, hplace, rfl⟩ := List.mem_mapIdx.mp hp
    rfl
  | _ => exact absurd hv id

theorem applyTomlSection_eq_none (c : Config) (ss : List Setting) {v : Toml.Value}
    (hv : ¬ IsSection v) : c.applyTomlSection ss v = none := by
  cases v with
  | table => exact absurd trivial hv
  | array => exact absurd trivial hv
  | tables => exact absurd trivial hv
  | date => exact absurd trivial hv
  | _ => rfl

theorem gifts_of_section {es : Toml.Entries} {sec : String × List Setting} {v : Toml.Value}
    (hv : Sorted.find? sec.1 es = some v) :
    gifts es sec = sec.2.mapIdx fun place s => (s, inSection? place s.name v) := by
  unfold gifts inDocument?
  rw [hv]
  rfl

theorem gifts_of_none {es : Toml.Entries} {sec : String × List Setting}
    (hv : Sorted.find? sec.1 es = none) : ∀ p ∈ gifts es sec, p.2 = none := by
  intro p hp
  obtain ⟨place, s, -, rfl⟩ := mem_gifts.mp hp
  unfold inDocument?
  rw [hv, Option.bind_none]

theorem applyTomlSections_cons (es : Toml.Entries) (c : Config) (sec : String × List Setting)
    (secs : List (String × List Setting)) :
    applyTomlSections es c (sec :: secs) =
      ((Sorted.find? sec.1 es).elim (some c) (c.applyTomlSection sec.2)).bind
        fun c₁ => applyTomlSections es c₁ secs := by
  rw [applyTomlSections]
  cases Sorted.find? sec.1 es <;> rfl

theorem applyTomlSections_iff_foldlM (es : Toml.Entries) (c c' : Config)
    (secs : List (String × List Setting)) :
    applyTomlSections es c secs = some c' ↔
      (∀ sec ∈ secs, ∀ v, Sorted.find? sec.1 es = some v → IsSection v) ∧
        (secs.flatMap (gifts es)).foldlM put? c = some c' := by
  induction secs generalizing c with
  | nil => exact (and_iff_right nofun).symm
  | cons sec secs ih =>
    rw [applyTomlSections_cons, List.forall_mem_cons, List.flatMap_cons, List.foldlM_append]
    cases hv : Sorted.find? sec.1 es with
    | none =>
      have hthis : ∀ w, none = some w → IsSection w := nofun
      rw [foldlM_put?_of_none (gifts_of_none hv), and_iff_right hthis]
      exact ih c
    | some v =>
      rw [Option.elim_some, gifts_of_section hv]
      by_cases hsection : IsSection v
      · have hthis : ∀ w, some v = some w → IsSection w := by
          rintro w ⟨⟩
          exact hsection
        rw [and_iff_right hthis, ← applyTomlSection_eq c sec.2 hsection]
        cases c.applyTomlSection sec.2 v with
        | none => exact iff_of_false nofun fun h => nomatch h.2
        | some c₁ => exact ih c₁
      · rw [applyTomlSection_eq_none c sec.2 hsection]
        exact iff_of_false nofun fun h => hsection (h.1.1 v rfl)

section
variable {es : Toml.Entries} {c c' : Config}

theorem gift_mem {sec : String × List Setting} (hsec : sec ∈ sections) {place : Nat} {s : Setting}
    (hs : sec.2[place]? = some s) :
    (s, inDocument? es sec.1 place s.name) ∈ sections.flatMap (gifts es) :=
  List.mem_flatMap.mpr ⟨sec, hsec, mem_gifts.mpr ⟨place, s, hs, rfl⟩⟩

/-- A configuration can be read from a document when what the document gives is of the right kinds. -/
theorem isSome_applyTomlSections : (applyTomlSections es c sections).isSome ↔ Reads es := by
  rw [Option.isSome_iff_exists]
  simp only [applyTomlSections_iff_foldlM, exists_and_left, ← Option.isSome_iff_exists,
    isSome_foldlM_put?]
  constructor
  · rintro ⟨hsections, haccepts⟩ sec hsec
    exact ⟨hsections sec hsec, fun place s hs => haccepts _ (gift_mem hsec hs)⟩
  · intro hreads
    refine ⟨fun sec hsec => (hreads sec hsec).1, fun p hp => ?_⟩
    obtain ⟨sec, hsec, hp⟩ := List.mem_flatMap.mp hp
    obtain ⟨place, s, hs, rfl⟩ := mem_gifts.mp hp
    exact (hreads sec hsec).2 place s hs

/-- It takes what the document gives, and keeps its other settings. -/
theorem value?_applyTomlSections (hes : Toml.IsBoundedTable es)
    (h : applyTomlSections es c sections = some c') :
    ∀ sec ∈ sections, ∀ place s, sec.2[place]? = some s →
      s.value? c' = (inDocument? es sec.1 place s.name).or (s.value? c) := by
  have hnames : (sections.flatMap (gifts es)).map (·.1) = settings := rfl
  have hmem : ∀ p ∈ sections.flatMap (gifts es), p.1 ∈ settings := fun p hp =>
    hnames ▸ List.mem_map_of_mem hp
  have hbounded : ∀ p ∈ sections.flatMap (gifts es), ∀ v, p.2 = some v → v.IsBounded := by
    intro p hp v hv
    obtain ⟨sec, -, hp⟩ := List.mem_flatMap.mp hp
    obtain ⟨place, s, -, rfl⟩ := mem_gifts.mp hp
    exact hes.inDocument? hv
  have hfold := ((applyTomlSections_iff_foldlM es c c' sections).mp h).2
  intro sec hsec place s hs
  exact (value?_foldlM_put? hmem settings_nodup hbounded hfold).1 _ (gift_mem hsec hs)

end

end Config

end DeviceHub
