import DeviceHub.Proofs.Json.Record

/-!
# What is read has a property

* `Codec.Gives`      all values that a codec reads have a property;
* `Codec.gives_float`, `Gives.option`, `Gives.list`   codecs and the properties of what they read;
* `Field.Preserves`  reading a field keeps a property of the record;
* `Record.gives`     a property of the empty record that all fields keep is one of what is read.
-/

namespace DeviceHub.Json

variable {σ α : Type}

/-- All values that a codec reads have a property. -/
def Codec.Gives (c : Codec α) (P : α → Prop) : Prop :=
  ∀ room d a, c.read room d = .ok a → P a

/-- Reading a field keeps a property of the record. -/
def Field.Preserves (f : Field σ) (P : σ → Prop) : Prop :=
  ∀ room d v w, f.read room d v = .ok w → P v → P w

theorem bind_ok {ε β γ : Type} {x : Except ε β} {f : β → Except ε γ} {c : γ}
    (h : (x >>= f) = .ok c) : ∃ b, x = .ok b ∧ f b = .ok c := by
  cases x with
  | error e => cases h
  | ok b => exact ⟨b, rfl, h⟩

namespace Codec

variable {c : Codec α} {P : α → Prop}

theorem Gives.of_decode (h : c.Gives P) {octets : List UInt8} {a : α}
    (hread : c.decode octets = .ok a) : P a :=
  h _ _ a (read_of_decode hread)

theorem gives_float : Codec.float.Gives fun x => x.isFinite = true := by
  intro room d x hread
  have hchecked (y : Float)
      (h : (if y.isFinite = true then .ok y else .error Fault.malformed) = Except.ok x) :
      x.isFinite = true := by
    by_cases hy : y.isFinite = true
    · rw [if_pos hy] at h
      exact Except.ok.inj h ▸ hy
    · rw [if_neg hy] at h
      cases h
  unfold Codec.float at hread
  obtain ⟨n, -, hfinite⟩ := bind_ok hread
  cases n with
  | int i => exact hchecked _ hfinite
  | float y => exact hchecked y hfinite

theorem Gives.option (h : c.Gives P) : (Codec.option c).Gives fun o => ∀ a ∈ o, P a := by
  intro room d o hread
  by_cases hd : d = .null
  · subst hd
    cases hread
    exact nofun
  · -- whatever is not null is read by the codec itself
    have hsome : (c.read room d).map some = .ok o := by
      cases d with
      | null => exact absurd rfl hd
      | _ => exact hread
    cases hvalue : c.read room d with
    | error e =>
      rw [hvalue] at hsome
      cases hsome
    | ok b =>
      rw [hvalue] at hsome
      cases hsome
      rintro a ⟨⟩
      exact h room d b hvalue

theorem Gives.mapM (h : c.Gives P) {room : Nat} {items : List Doc} {as : List α}
    (hread : items.mapM (c.read room) = .ok as) : ∀ a ∈ as, P a := by
  induction items generalizing as with
  | nil =>
    cases hread
    exact fun a ha => nomatch ha
  | cons d items ih =>
    rw [List.mapM_cons] at hread
    obtain ⟨b, hfirst, hread⟩ := bind_ok hread
    obtain ⟨bs, hrest, heq⟩ := bind_ok hread
    cases heq
    intro a ha
    rcases List.mem_cons.mp ha with rfl | ha
    · exact h room d a hfirst
    · exact ih hrest a ha

theorem Gives.list (h : c.Gives P) : (Codec.list c).Gives fun as => ∀ a ∈ as, P a := by
  intro room d as hread
  cases d with
  | array items =>
    obtain ⟨inner, -, hitems⟩ := bind_ok (show (enter room >>= _) = Except.ok as from hread)
    exact h.mapM hitems
  | _ => cases hread

end Codec

theorem Field.preserves_omitted (name : String) {c : Codec α} {Q : α → Prop} (h : c.Gives Q)
    (get : σ → α) (set : α → σ → σ) (absent : α → Bool) {P : σ → Prop}
    (hset : ∀ a v, Q a → P v → P (set a v)) : (omitted name c get set absent).Preserves P := by
  intro room d v w hw hv
  obtain ⟨a, hread, rfl⟩ := read_omitted hw
  exact hset a v (h room d a hread) hv

theorem Field.preserves_of_set (name : String) (c : Codec α) (get : σ → α) (set : α → σ → σ)
    (absent : α → Bool) {P : σ → Prop} (hset : ∀ a v, P v → P (set a v)) :
    (omitted name c get set absent).Preserves P :=
  preserves_omitted name (Q := fun _ => True) (fun _ _ _ _ => trivial) get set absent
    fun a v _ hv => hset a v hv

namespace Record

variable {fields : List (Field σ)} {P : σ → Prop} {room : Nat}

theorem readMembers_preserves (hfields : ∀ f ∈ fields, f.Preserves P) {v w : σ}
    {seen seen' : List String} {ms : List (Option String × Doc)} (hv : P v)
    (h : readMembers fields room v seen ms = .ok (w, seen')) : P w := by
  induction ms generalizing v seen with
  | nil =>
    cases h
    exact hv
  | cons m ms ih =>
    obtain ⟨key, -, ⟨-, hrest⟩ | ⟨f, u, hsome, -, hread, hrest⟩⟩ := readMembers_cons h
    · exact ih hv hrest
    · exact ih (hfields f (named_of_find? hsome).1 room m.2 v u hread hv) hrest

theorem readItems_preserves (hfields : ∀ f ∈ fields, f.Preserves P) {v w : σ} {items : List Doc}
    (hv : P v) (h : readItems room fields v items = .ok w) : P w := by
  induction fields generalizing v items with
  | nil =>
    cases items with
    | nil =>
      cases h
      exact hv
    | cons d ds => cases h
  | cons f fs ih =>
    cases items with
    | nil => exact readItems_nil h ▸ hv
    | cons d ds =>
      obtain ⟨u, hread, hrest⟩ := readItems_cons h
      exact ih (fun g hg => hfields g (List.mem_cons_of_mem _ hg))
        (hfields f List.mem_cons_self room d v u hread hv) hrest

/-- A property of the empty record that all fields keep is one of every record that is read. -/
theorem gives {r : Record σ} (hbase : P r.base) (hfields : ∀ f ∈ r.fields, f.Preserves P) :
    r.codec.Gives P := by
  intro room d w h
  have hread : r.read room d = .ok w := h
  cases d with
  | object ms =>
    obtain ⟨inner, seen, -, hms⟩ := read_object hread
    exact readMembers_preserves hfields hbase hms
  | array items =>
    obtain ⟨inner, -, hitems⟩ := read_array hread
    exact readItems_preserves hfields hbase hitems
  | _ => cases hread

end Record

end DeviceHub.Json
