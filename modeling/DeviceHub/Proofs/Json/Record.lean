import Mathlib
import DeviceHub.Json.Record

/-!
# Records as JSON: laws

* `Codec.read_of_decode`    a text that is decoded is the text of a document that is read;
* `given?`                  the value that an object gives for a name;
* `Field.Shows`, `Field.Keeps`   what reading a field does to a part of the record;
* `Record.readMembers_part` a part of a record that is read from an object is what the object gives
                            for its name, or stays as it was;
* `Record.Has`, `Record.Has.agree`  a part that two records have under one name, and its two values in
                            what they read from one object;
* `Record.readItems_cons`, `Record.readItems_nil`  reading from an array, field by field.
-/

namespace DeviceHub.Json

theorem Codec.read_of_decode {α : Type} {c : Codec α} {octets : List UInt8} {a : α}
    (h : c.decode octets = .ok a) :
    c.read maxDepth (Doc.scan (Text.Utf8.decode octets)).1 = .ok a := by
  unfold Codec.decode Codec.decodeSymbols at h
  simp only at h
  split at h
  · cases h
  · rename_i hread
    split at h
    · cases h
      exact hread
    · cases h

/-- the value that an object gives for a name, the first one -/
def given? (name : String) (ms : List (Option String × Doc)) : Option Doc :=
  (ms.find? fun m => m.1 = some name).map (·.2)

theorem given?_cons_self (name : String) (d : Doc) (ms : List (Option String × Doc)) :
    given? name ((some name, d) :: ms) = some d := by
  unfold given?
  rw [List.find?_cons_of_pos (by simp)]
  rfl

theorem given?_cons_ne {name key : String} (h : key ≠ name) (d : Doc)
    (ms : List (Option String × Doc)) : given? name ((some key, d) :: ms) = given? name ms := by
  unfold given?
  rw [List.find?_cons_of_neg (by simp [h])]

namespace Field

variable {σ α β : Type}

/-- Reading the field sets a part of the record, through a codec. -/
def Shows (f : Field σ) (c : Codec α) (part : σ → α) : Prop :=
  ∀ room d v w, f.read room d v = .ok w → c.read room d = .ok (part w)

/-- Reading the field leaves a part of the record as it is. -/
def Keeps (f : Field σ) (part : σ → β) : Prop :=
  ∀ room d v w, f.read room d v = .ok w → part w = part v

theorem read_omitted {name : String} {c : Codec α} {get : σ → α} {set : α → σ → σ}
    {absent : α → Bool} {room : Nat} {d : Doc} {v w : σ} (h : (omitted name c get set absent).read room d v = .ok w) :
    ∃ a, c.read room d = .ok a ∧ w = set a v := by
  have h' : (c.read room d).map (fun a => set a v) = .ok w := h
  cases hread : c.read room d with
  | error e =>
    rw [hread] at h'
    cases h'
  | ok a =>
    rw [hread] at h'
    cases h'
    exact ⟨a, rfl, rfl⟩

theorem shows_omitted (name : String) (c : Codec α) (get : σ → α) (set : α → σ → σ)
    (absent : α → Bool) {part : σ → α} (h : ∀ a v, part (set a v) = a) :
    (omitted name c get set absent).Shows c part := by
  intro room d v w hw
  obtain ⟨a, hread, rfl⟩ := read_omitted hw
  rw [hread, h]

theorem keeps_omitted (name : String) (c : Codec α) (get : σ → α) (set : α → σ → σ)
    (absent : α → Bool) {part : σ → β} (h : ∀ a v, part (set a v) = part v) :
    (omitted name c get set absent).Keeps part := by
  intro room d v w hw
  obtain ⟨a, -, rfl⟩ := read_omitted hw
  exact h a v

end Field

namespace Record

variable {σ α : Type} {fields : List (Field σ)} {room : Nat}

theorem named_of_find? {f : Field σ} {key : String} (h : fields.find? (·.name = key) = some f) :
    f ∈ fields ∧ f.name = key := by
  have hname := List.find?_some h
  exact ⟨List.mem_of_find?_eq_some h, of_decide_eq_true hname⟩

theorem readMembers_cons {v w : σ} {seen seen' : List String} {m : Option String × Doc}
    {ms : List (Option String × Doc)}
    (h : readMembers fields room v seen (m :: ms) = .ok (w, seen')) :
    ∃ key, m.1 = some key ∧
      ((fields.find? (·.name = key) = none ∧ readMembers fields room v seen ms = .ok (w, seen')) ∨
      ∃ f u, fields.find? (·.name = key) = some f ∧ key ∉ seen ∧ f.read room m.2 v = .ok u ∧
        readMembers fields room u (key :: seen) ms = .ok (w, seen')) := by
  obtain ⟨_ | key, d⟩ := m
  · cases h
  · refine ⟨key, rfl, ?_⟩
    rw [readMembers] at h
    split at h
    · rename_i hnone
      split at h
      · exact Or.inl ⟨hnone, h⟩
      · cases h
    · rename_i f hsome
      split at h
      · cases h
      · rename_i hseen
        split at h
        · cases h
        · rename_i u hread
          exact Or.inr ⟨f, u, hsome, hseen, hread, h⟩

section
variable {name : String} {f : Field σ} {c : Codec α} {part : σ → α}
  (hf : fields.find? (·.name = name) = some f)
  (hkeeps : ∀ g ∈ fields, g.name ≠ name → g.Keeps part)
include hf hkeeps

theorem readMembers_seen {v w : σ} {seen seen' : List String} {ms : List (Option String × Doc)}
    (h : readMembers fields room v seen ms = .ok (w, seen')) (hseen : name ∈ seen) :
    given? name ms = none ∧ part w = part v := by
  induction ms generalizing v seen with
  | nil =>
    cases h
    exact ⟨rfl, rfl⟩
  | cons m ms ih =>
    obtain ⟨mkey, d⟩ := m
    obtain ⟨key, rfl, ⟨hnone, hrest⟩ | ⟨g, u, hsome, hnew, hread, hrest⟩⟩ := readMembers_cons h
    · have hne : key ≠ name := fun heq => by
        rw [heq, hf] at hnone
        cases hnone
      rw [given?_cons_ne hne]
      exact ih hrest hseen
    · have hne : key ≠ name := fun heq => hnew (heq ▸ hseen)
      obtain ⟨hmem, rfl⟩ := named_of_find? hsome
      obtain ⟨hgiven, hpart⟩ := ih hrest (List.mem_cons_of_mem _ hseen)
      rw [given?_cons_ne hne]
      exact ⟨hgiven, hpart.trans (hkeeps g hmem hne room d v u hread)⟩

/-- A part of a record that is read from an object is what the object gives for its name, or stays as
it was. -/
theorem readMembers_part (hshows : f.Shows c part) {v w : σ} {seen seen' : List String}
    {ms : List (Option String × Doc)} (h : readMembers fields room v seen ms = .ok (w, seen'))
    (hnew : name ∉ seen) :
    match given? name ms with
    | none => part w = part v
    | some d => c.read room d = .ok (part w) := by
  induction ms generalizing v seen with
  | nil =>
    cases h
    rfl
  | cons m ms ih =>
    obtain ⟨mkey, d⟩ := m
    obtain ⟨key, rfl, ⟨hnone, hrest⟩ | ⟨g, u, hsome, -, hread, hrest⟩⟩ := readMembers_cons h
    · have hne : key ≠ name := fun heq => by
        rw [heq, hf] at hnone
        cases hnone
      rw [given?_cons_ne hne]
      exact ih hrest hnew
    · by_cases heq : key = name
      · subst heq
        obtain rfl : f = g := Option.some.inj (hf.symm.trans hsome)
        obtain ⟨-, hpart⟩ := readMembers_seen hf hkeeps hrest List.mem_cons_self
        rw [given?_cons_self]
        show c.read room d = .ok (part w)
        rw [hpart]
        exact hshows room d v u hread
      · obtain ⟨hmem, rfl⟩ := named_of_find? hsome
        have hkept : part u = part v := hkeeps g hmem heq room d v u hread
        rw [given?_cons_ne heq]
        have hrest' := ih hrest (fun hmem => (List.mem_cons.mp hmem).elim (Ne.symm heq) hnew)
        rw [hkept] at hrest'
        exact hrest'

end

theorem read_object {r : Record σ} {ms : List (Option String × Doc)} {w : σ}
    (h : r.read room (.object ms) = .ok w) :
    ∃ inner seen, enter room = .ok inner ∧
      readMembers r.fields inner r.base [] ms = .ok (w, seen) := by
  unfold read at h
  cases hroom : enter room with
  | error e =>
    rw [hroom] at h
    cases h
  | ok inner =>
    rw [hroom] at h
    cases hms : readMembers r.fields inner r.base [] ms with
    | error e =>
      simp only [bind, Except.bind, hms] at h
      cases h
    | ok p =>
      obtain ⟨u, seen⟩ := p
      simp only [bind, Except.bind, hms] at h
      split at h
      · cases h
        exact ⟨inner, seen, rfl, hms⟩
      · cases h

theorem read_array {r : Record σ} {items : List Doc} {w : σ}
    (h : r.read room (.array items) = .ok w) :
    ∃ inner, enter room = .ok inner ∧ readItems inner r.fields r.base items = .ok w := by
  unfold read at h
  cases hroom : enter room with
  | error e =>
    rw [hroom] at h
    cases h
  | ok inner =>
    rw [hroom] at h
    exact ⟨inner, rfl, h⟩

/-- A record has a part under a name: one field shows it, and the others leave it as it is. -/
structure Has (r : Record σ) (name : String) (c : Codec α) (part : σ → α) : Prop where
  shows : ∃ f, r.fields.find? (·.name = name) = some f ∧ f.Shows c part
  keeps : ∀ f ∈ r.fields, f.name ≠ name → f.Keeps part

/-- Two records that have a part under one name read the same from one object. -/
theorem Has.agree {τ : Type} {r : Record σ} {q : Record τ} {name : String} {c : Codec α}
    {part : σ → α} {part' : τ → α} (hr : r.Has name c part) (hq : q.Has name c part')
    (hbase : part r.base = part' q.base) {ms : List (Option String × Doc)} {v : σ} {w : τ}
    (hv : r.read room (.object ms) = .ok v) (hw : q.read room (.object ms) = .ok w) :
    part v = part' w := by
  obtain ⟨f, hf, hshows⟩ := hr.shows
  obtain ⟨g, hg, hshows'⟩ := hq.shows
  obtain ⟨inner, seen, hroom, hms⟩ := read_object hv
  obtain ⟨inner', seen', hroom', hms'⟩ := read_object hw
  obtain rfl : inner = inner' := Except.ok.inj (hroom.symm.trans hroom')
  have hpart := readMembers_part hf hr.keeps hshows hms List.not_mem_nil
  have hpart' := readMembers_part hg hq.keeps hshows' hms' List.not_mem_nil
  cases hgiven : given? name ms with
  | none =>
    simp only [hgiven] at hpart hpart'
    rw [hpart, hpart', hbase]
  | some d =>
    simp only [hgiven] at hpart hpart'
    exact Except.ok.inj (hpart.symm.trans hpart')

theorem readItems_cons {f : Field σ} {fs : List (Field σ)} {v w : σ} {d : Doc} {ds : List Doc}
    (h : readItems room (f :: fs) v (d :: ds) = .ok w) :
    ∃ u, f.read room d v = .ok u ∧ readItems room fs u ds = .ok w := by
  rw [readItems] at h
  split at h
  · cases h
  · exact ⟨_, ‹_›, h⟩

theorem readItems_nil {fs : List (Field σ)} {v w : σ} (h : readItems room fs v [] = .ok w) :
    w = v := by
  cases fs with
  | nil =>
    cases h
    rfl
  | cons f fs =>
    rw [readItems] at h
    split at h
    · cases h
      rfl
    · cases h

end Record

end DeviceHub.Json
