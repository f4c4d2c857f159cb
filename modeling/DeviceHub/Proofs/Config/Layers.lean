import DeviceHub.Config.Load
import DeviceHub.Proofs.Config.Settings
import DeviceHub.Proofs.Text.Utf8

/-!
# Defaults, file and environment, layer by layer

* `Config.variableNames`        the settings that have a variable;
* `Setting.override?`           what the environment gives for a setting;
* `Config.value?_withEnvironment`   the environment goes before what was there;
* `millis?_eq_some_iff`         the variables that give a number;
* `Config.Source`               the document that a file holds; no file counts as an empty one;
* `Config.IsLayered`            every setting is that of the environment, else that of the document, else
                                the default;
* `Config.load_eq_ok_iff`       what is loaded is layered and valid, and everything such is loaded;
* `Config.settings_are_layered`   so it is setting by setting, and the environment is idempotent.
-/

namespace DeviceHub

open Toml (inDocument?)

namespace Config

/-- the settings that have a variable: section, name and variable -/
def variableNames : List ((String × String) × String) := [
  (("mqtt", "broker_url"), "MQTT_BROKER_URL"),
  (("mqtt", "client_id"), "MQTT_CLIENT_ID"),
  (("mqtt", "username"), "MQTT_USERNAME"),
  (("mqtt", "password"), "MQTT_PASSWORD"),
  (("telemetry", "min_write_ms"), "TELEMETRY_MIN_WRITE_MS"),
  (("influx", "url"), "INFLUX_URL"),
  (("influx", "token"), "INFLUX_TOKEN"),
  (("influx", "org"), "INFLUX_ORG"),
  (("influx", "bucket"), "INFLUX_BUCKET"),
  (("http", "addr"), "HTTP_ADDR")]

end Config

namespace Setting

/-- What a variable gives for a setting: nothing if it is blank, and otherwise its text as it is, or
the number that it spells. -/
def ofVariable? (s : Setting) (v : String) : Option Toml.Value :=
  if Text.isBlank v then none
  else
    match s.access with
    | .number _ _ => (millis? v).map fun n => .int n.toNat
    | _ => some (.text v)

def override? (s : Setting) (env : Environment) (sec : String) : Option Toml.Value :=
  ((Config.variableNames.lookup (sec, s.name)).bind env).bind s.ofVariable?

end Setting

/-! ## The environment -/

namespace Environment

variable (env : Environment) (name : String)

theorem bind_get? {α : Type} (f : String → Option α) :
    (env.get? name).bind f = (env name).bind fun v => if Text.isBlank v then none else f v := by
  unfold Environment.get?
  cases env name with
  | none => rfl
  | some v =>
    rw [Option.filter_some, Option.bind_some]
    cases Text.isBlank v <;> rfl

theorem text_layer (a : String) :
    some (Toml.Value.text ((env.get? name).getD a)) =
      ((env name).bind fun v => if Text.isBlank v then none else some (.text v)).or
        (some (.text a)) := by
  rw [← bind_get? env name fun v => some (Toml.Value.text v)]
  cases env.get? name <;> rfl

theorem optional_layer (a : Option String) :
    ((env.get? name <|> a).map Toml.Item.text).map Toml.Item.value =
      ((env name).bind fun v => if Text.isBlank v then none else some (.text v)).or
        ((a.map Toml.Item.text).map Toml.Item.value) := by
  rw [← bind_get? env name fun v => some (Toml.Value.text v)]
  cases env.get? name <;> rfl

theorem number_layer (a : UInt64) :
    some (Toml.Value.int (((env.get? name).bind millis?).getD a).toNat) =
      ((env name).bind fun v =>
        if Text.isBlank v then none else (millis? v).map fun n => .int n.toNat).or
        (some (.int a.toNat)) := by
  rw [← bind_get? env name fun v => (millis? v).map fun n => Toml.Value.int n.toNat]
  cases env.get? name with
  | none => rfl
  | some v =>
    rw [Option.bind_some, Option.bind_some]
    cases millis? v <;> rfl

end Environment

namespace Config

open Environment (text_layer optional_layer number_layer)

theorem value?_withEnvironment (c : Config) (env : Environment) :
    ∀ sec ∈ sections, ∀ s ∈ sec.2,
      s.value? (c.withEnvironment env) = (s.override? env sec.1).or (s.value? c) := by
  simp only [← List.forall_iff_forall_mem]
  exact ⟨⟨text_layer env _ _, text_layer env _ _, optional_layer env _ _, optional_layer env _ _,
    rfl, rfl⟩, ⟨number_layer env _ _, rfl⟩, ⟨text_layer env _ _, optional_layer env _ _,
    text_layer env _ _, text_layer env _ _, rfl, rfl, rfl⟩, text_layer env _ _, ⟨rfl, rfl⟩, rfl, rfl⟩

theorem ext_sections {c c' : Config}
    (h : ∀ sec ∈ sections, ∀ s ∈ sec.2, s.value? c = s.value? c') : c = c' := by
  refine ext_values fun s hs => ?_
  obtain ⟨sec, hsec, hs⟩ := mem_settings.mp hs
  exact h sec hsec s hs

theorem withEnvironment_idem (c : Config) (env : Environment) :
    (c.withEnvironment env).withEnvironment env = c.withEnvironment env := by
  refine ext_sections fun sec hsec s hs => ?_
  rw [value?_withEnvironment _ env sec hsec s hs, value?_withEnvironment c env sec hsec s hs,
    ← Option.or_assoc, Option.or_self]

theorem withEnvironment_of_none {env : Environment}
    (h : ∀ sec ∈ sections, ∀ s ∈ sec.2, s.override? env sec.1 = none) (c : Config) :
    c.withEnvironment env = c := by
  refine ext_sections fun sec hsec s hs => ?_
  rw [value?_withEnvironment c env sec hsec s hs, h sec hsec s hs, Option.none_or]

end Config

theorem millis?_eq_some_iff {v : String} {n : UInt64} :
    millis? v = some n ↔
      ∃ i, Decimal.Spells (Text.trimChars v.toList) i ∧ 0 ≤ i ∧ i < 0x8000000000000000 ∧
        (n.toNat : Int) = i := by
  unfold millis?
  simp only [Option.bind_eq_bind, Option.bind_eq_some_iff, Decimal.signed?_eq_some_iff]
  refine exists_congr fun i => and_congr_right fun _ => ?_
  constructor
  · intro h
    split at h
    · rename_i hi
      cases h
      rw [UInt64.toNat_ofNat_of_lt' (by unfold UInt64.size; omega), Int.toNat_of_nonneg hi.1]
      exact ⟨hi.1, hi.2, rfl⟩
    · cases h
  · rintro ⟨hzero, hmax, rfl⟩
    rw [if_pos ⟨hzero, hmax⟩, Int.toNat_natCast, UInt64.ofNat_toNat]

/-! ## Loading -/

namespace Config

/-- the document that a file holds; without a file there is an empty one -/
inductive Source : Option File → Toml.Entries → Prop
  | absent : Source none []
  | file {f : File} {octets : List UInt8} {s : String} {es : Toml.Entries}
      (hoctets : f.octets = some octets) (htext : Text.Utf8.text? octets = some s)
      (hread : Toml.read? s = some es) : Source (some f) es

/-- Every setting is that of the environment, else that of the document, else the default. -/
def IsLayered (es : Toml.Entries) (env : Environment) (c : Config) : Prop :=
  ∀ sec ∈ sections, ∀ (place : Nat) (s : Setting), sec.2[place]? = some s →
    s.value? c =
      (s.override? env sec.1).or ((inDocument? es sec.1 place s.name).or (s.value? {}))

variable {file : Option File} {es : Toml.Entries} {env : Environment}

theorem Source.isBounded (h : Source file es) : Toml.IsBoundedTable es := by
  cases h with
  | absent => exact Toml.isBoundedTable_nil
  | file _ _ hread => exact Toml.read?_isBounded hread

theorem Source.unique {es' : Toml.Entries} (h : Source file es) (h' : Source file es') :
    es = es' := by
  cases h with
  | absent =>
    cases h'
    rfl
  | file hoctets htext hread =>
    cases h' with
    | file hoctets' htext' hread' =>
      cases hoctets.symm.trans hoctets'
      cases htext.symm.trans htext'
      exact Option.some.inj (hread.symm.trans hread')

theorem ofFile_eq_ok_iff {f : File} {c : Config} :
    ofFile f = .ok c ↔ ∃ es, Source (some f) es ∧ applyTomlSections es {} sections = some c := by
  constructor
  · intro h
    unfold ofFile at h
    split at h
    · cases h
    · rename_i s hs
      obtain ⟨octets, hoctets, htext⟩ := Option.bind_eq_some_iff.mp hs
      split at h
      · cases h
      · rename_i c' hc
        cases h
        obtain ⟨es, hread, happly⟩ := Option.bind_eq_some_iff.mp hc
        exact ⟨es, .file hoctets htext hread, happly⟩
  · rintro ⟨es, hsource, happly⟩
    cases hsource with
    | file hoctets htext hread =>
      unfold ofFile ofToml?
      rw [hoctets, Option.bind_some, htext]
      simp only [hread, Option.bind_eq_bind, Option.bind_some, happly]

theorem ofFile_encode (path : String) {s : String} {c : Config} (h : ofToml? s = some c) :
    ofFile ⟨path, some (Text.Utf8.encode s)⟩ = .ok c := by
  unfold ofFile
  simp only [Option.bind_some, Text.Utf8.text?_encode, h]

def checked (c : Config) : Except ConfigError Config :=
  match c.fault? with
  | some e => .error e
  | none => .ok c

theorem checked_eq_ok_iff {b c : Config} : b.checked = .ok c ↔ b = c ∧ c.fault? = none := by
  unfold checked
  cases hfault : b.fault? with
  | some e =>
    refine iff_of_false nofun ?_
    rintro ⟨rfl, hnone⟩
    cases hnone.symm.trans hfault
  | none =>
    constructor
    · intro h
      cases h
      exact ⟨rfl, hfault⟩
    · rintro ⟨rfl, -⟩
      rfl

theorem load_none (env : Environment) :
    load none env = (({} : Config).withEnvironment env).checked := by
  unfold load checked
  rfl

theorem load_some (f : File) (env : Environment) :
    load (some f) env = (ofFile f).bind fun b => (b.withEnvironment env).checked := by
  unfold load checked
  rfl

theorem load_eq_ok_iff_document {file : Option File} {env : Environment} {c : Config} :
    load file env = .ok c ↔
      ∃ es b, Source file es ∧ applyTomlSections es {} sections = some b ∧
        b.withEnvironment env = c ∧ c.fault? = none := by
  cases file with
  | none =>
    have hdefault : applyTomlSections [] {} sections = some {} := by decide +kernel
    rw [load_none, checked_eq_ok_iff]
    refine ⟨fun h => ⟨[], {}, .absent, hdefault, h⟩, ?_⟩
    rintro ⟨es, b, ⟨⟩, happly, h⟩
    cases hdefault.symm.trans happly
    exact h
  | some f =>
    rw [load_some]
    cases hfile : ofFile f with
    | error e =>
      refine iff_of_false nofun ?_
      rintro ⟨es, b, hsource, happly, -⟩
      cases hfile.symm.trans (ofFile_eq_ok_iff.mpr ⟨es, hsource, happly⟩)
    | ok b =>
      obtain ⟨es, hsource, happly⟩ := ofFile_eq_ok_iff.mp hfile
      rw [Except.bind, checked_eq_ok_iff]
      refine ⟨fun h => ⟨es, b, hsource, happly, h⟩, ?_⟩
      rintro ⟨es', b', hsource', happly', h⟩
      cases hfile.symm.trans (ofFile_eq_ok_iff.mpr ⟨es', hsource', happly'⟩)
      exact h

theorem isLayered_withEnvironment {c : Config} (hes : Toml.IsBoundedTable es)
    (h : applyTomlSections es {} sections = some c) : IsLayered es env (c.withEnvironment env) := by
  intro sec hsec place s hs
  rw [value?_withEnvironment c env sec hsec s (List.mem_of_getElem? hs),
    value?_applyTomlSections hes h sec hsec place s hs]

theorem IsLayered.unique {c c' : Config} (h : IsLayered es env c) (h' : IsLayered es env c') :
    c = c' := by
  refine ext_sections fun sec hsec s hs => ?_
  obtain ⟨place, hs⟩ := List.mem_iff_getElem?.mp hs
  rw [h sec hsec place s hs, h' sec hsec place s hs]

theorem existsUnique_isLayered (hsource : Source file es) (hreads : Reads es) (env : Environment) :
    ∃! c, IsLayered es env c := by
  obtain ⟨c, hc⟩ := Option.isSome_iff_exists.mp ((isSome_applyTomlSections (c := {})).mpr hreads)
  exact ⟨_, isLayered_withEnvironment hsource.isBounded hc, fun _ h =>
    h.unique (isLayered_withEnvironment hsource.isBounded hc)⟩

theorem load_eq_ok_iff {c : Config} :
    load file env = .ok c ↔
      ∃ es, Source file es ∧ Reads es ∧ IsLayered es env c ∧ c.fault? = none := by
  rw [load_eq_ok_iff_document]
  constructor
  · rintro ⟨es, b, hsource, happly, rfl, hvalid⟩
    exact ⟨es, hsource, isSome_applyTomlSections.mp (Option.isSome_of_eq_some happly),
      isLayered_withEnvironment hsource.isBounded happly, hvalid⟩
  · rintro ⟨es, hsource, hreads, hlayered, hvalid⟩
    obtain ⟨b, happly⟩ := Option.isSome_iff_exists.mp
      ((isSome_applyTomlSections (c := {})).mpr hreads)
    have hsame := (isLayered_withEnvironment hsource.isBounded happly).unique hlayered
    exact ⟨es, b, hsource, happly, hsame, hvalid⟩

/-- What is loaded is what has its settings from the environment, else from the document, else by
default, if the document can be read and the whole is valid.  There is one such configuration; the
settings without a variable do not depend on the environment.  A number may have blanks around it, and
a sign.  To apply an environment twice is to apply it once, and when all variables are missing, blank
or no number it changes nothing. -/
theorem settings_are_layered (file : Option File) (env : Environment) :
    (∀ c, load file env = .ok c ↔
      ∃ es, Source file es ∧ Reads es ∧ IsLayered es env c ∧ c.fault? = none) ∧
    (∀ es, Source file es → Reads es → ∃! c, IsLayered es env c) ∧
    (∀ env' c c', load file env = .ok c → load file env' = .ok c' →
      ∀ sec ∈ sections, ∀ s ∈ sec.2, variableNames.lookup (sec.1, s.name) = none →
        s.value? c = s.value? c') ∧
    (∀ v n, millis? v = some n ↔
      ∃ i, Decimal.Spells (Text.trimChars v.toList) i ∧ 0 ≤ i ∧ i < 0x8000000000000000 ∧
        (n.toNat : Int) = i) ∧
    (∀ c : Config, (c.withEnvironment env).withEnvironment env = c.withEnvironment env) ∧
    ((∀ sec ∈ sections, ∀ s ∈ sec.2, s.override? env sec.1 = none) →
      ∀ c : Config, c.withEnvironment env = c) := by
  refine ⟨fun c => load_eq_ok_iff, fun es hsource hreads => existsUnique_isLayered hsource hreads env,
    fun env' c c' hc hc' sec hsec s hs hname => ?_, fun v n => millis?_eq_some_iff,
    fun c => withEnvironment_idem c env, withEnvironment_of_none⟩
  obtain ⟨es, b, hsource, happly, rfl, -⟩ := load_eq_ok_iff_document.mp hc
  obtain ⟨es', b', hsource', happly', rfl, -⟩ := load_eq_ok_iff_document.mp hc'
  obtain rfl := hsource.unique hsource'
  obtain rfl := Option.some.inj (happly.symm.trans happly')
  have hnone (env : Environment) : s.override? env sec.1 = none := by
    unfold Setting.override?
    rw [hname]
    rfl
  rw [value?_withEnvironment b env sec hsec s hs, value?_withEnvironment b env' sec hsec s hs,
    hnone, hnone]

/-- A file that gives a section as an array and another one in part, an environment that overrides
some of it, and one in which everything is blank or no number. -/
theorem settings_are_layered_partial :
    let text := "mqtt = ['tcp://a:1884', 'a']\n[telemetry]\nmin_write_ms = 500\nsoft_capacity = 7\n"
    let file : Option File := some ⟨"hub.toml", some (Text.Utf8.encode text)⟩
    let env : Environment := fun name =>
      if name = "MQTT_CLIENT_ID" then some " b "
      else if name = "TELEMETRY_MIN_WRITE_MS" then some " +25\t"
      else none
    let quiet : Environment := fun name =>
      if name = "TELEMETRY_MIN_WRITE_MS" then some "-5" else some " "
    let c : Config :=
      { mqtt := { brokerUrl := "tcp://a:1884", clientId := " b " }
        telemetry := { minWriteMs := 25, softCapacity := 7 } }
    let d : Config :=
      { mqtt := { brokerUrl := "tcp://a:1884", clientId := "a" }
        telemetry := { minWriteMs := 500, softCapacity := 7 } }
    load file env = .ok c ∧ load file quiet = .ok d ∧
      (∃ es, Source file es ∧ Reads es ∧ IsLayered es env c ∧ ∃! c, IsLayered es env c) ∧
      (∀ sec ∈ sections, ∀ s ∈ sec.2, variableNames.lookup (sec.1, s.name) = none →
        s.value? c = s.value? d) ∧
      d.withEnvironment quiet = d := by
  intro text file env quiet c d
  have hread : ofToml? text = some d := by decide +kernel
  have hload (env : Environment) : load file env = (d.withEnvironment env).checked := by
    rw [load_some, ofFile_encode _ hread]
    rfl
  have hc : load file env = .ok c := (hload env).trans (by decide +kernel)
  have hd : load file quiet = .ok d := (hload quiet).trans (by decide +kernel)
  have hquiet : ∀ sec ∈ sections, ∀ s ∈ sec.2, s.override? quiet sec.1 = none := by
    have hall : sections.all (fun sec => sec.2.all fun s => (s.override? quiet sec.1).isNone) := by
      decide +kernel
    intro sec hsec s hs
    exact Option.isNone_iff_eq_none.mp (List.all_eq_true.mp (List.all_eq_true.mp hall sec hsec) s hs)
  obtain ⟨hload, hunique, hother, -⟩ := settings_are_layered file env
  obtain ⟨es, hsource, hreads, hlayered, -⟩ := (hload c).mp hc
  exact ⟨hc, hd, ⟨es, hsource, hreads, hlayered, hunique es hsource hreads⟩,
    hother quiet c d hc hd, (settings_are_layered file quiet).2.2.2.2.2 hquiet d⟩

end Config

end DeviceHub
