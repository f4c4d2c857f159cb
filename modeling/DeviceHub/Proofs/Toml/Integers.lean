import DeviceHub.Proofs.Sorted
import DeviceHub.Toml.Document

/-!
# The integers of a document

* `Value.IsBounded`, `IsBoundedTable`   all integers in a value, or in a table, have 64 bits;
* `scalar?_isBounded`, `scan_isBounded`  so have those of a word and of a value;
* `descend_isBounded`   a change at the end of a path keeps them so, as do the lines of a document;
* `read?_isBounded`     all integers of a document have 64 bits.
-/

namespace DeviceHub.Toml

/-- All integers in a value have at most 64 bits, one of them for the sign. -/
inductive Value.IsBounded : Value → Prop
  | text (s : String) : IsBounded (.text s)
  | int {i : Int} (hmin : -0x8000000000000000 ≤ i) (hmax : i < 0x8000000000000000) :
      IsBounded (.int i)
  | float (x : Float) : IsBounded (.float x)
  | bool (b : Bool) : IsBounded (.bool b)
  | date (s : String) : IsBounded (.date s)
  | array {items : List Value} (h : ∀ v ∈ items, v.IsBounded) : IsBounded (.array items)
  | table (origin : Origin) {es : Entries} (h : ∀ e ∈ es, e.2.IsBounded) :
      IsBounded (.table origin es)
  | tables {elements : List Entries} (h : ∀ es ∈ elements, ∀ e ∈ es, e.2.IsBounded) :
      IsBounded (.tables elements)

/-- All integers in a table have. -/
def IsBoundedTable (es : Entries) : Prop := ∀ e ∈ es, e.2.IsBounded

theorem isBoundedTable_nil : IsBoundedTable [] := fun _ he => absurd he List.not_mem_nil

theorem IsBoundedTable.insert {es : Entries} (h : IsBoundedTable es) (key : String) {v : Value}
    (hv : v.IsBounded) : IsBoundedTable (Sorted.insert key v es) := by
  intro e he
  rcases Sorted.mem_insert he with rfl | he
  · exact hv
  · exact h e he

theorem IsBoundedTable.find? {es : Entries} (h : IsBoundedTable es) {key : String} {v : Value}
    (hv : Sorted.find? key es = some v) : v.IsBounded :=
  h (key, v) (Sorted.mem_of_find? hv)

/-! ## Words -/

theorem basedInt?_eq_some {base : Nat} {cs : List Char} {i : Int} (h : basedInt? base cs = some i) :
    0 ≤ i ∧ i < 0x8000000000000000 := by
  obtain ⟨ds, -, h⟩ := Option.bind_eq_some_iff.mp h
  obtain ⟨ns, -, h⟩ := Option.bind_eq_some_iff.mp h
  simp only at h
  split at h
  · obtain rfl := Option.some.inj h
    omega
  · cases h

theorem int?_eq_some {word : List Char} {i : Int} (h : int? word = some i) :
    -0x8000000000000000 ≤ i ∧ i < 0x8000000000000000 := by
  unfold int? at h
  split at h
  case h_4 =>
    generalize splitSign word = r at h
    obtain ⟨ds, -, h⟩ := Option.bind_eq_some_iff.mp h
    simp only at h
    split at h
    · split at h
      · obtain rfl := Option.some.inj h
        omega
      · cases h
    · split at h
      · obtain rfl := Option.some.inj h
        omega
      · cases h
  all_goals
    obtain ⟨hzero, hmax⟩ := basedInt?_eq_some h
    exact ⟨by omega, hmax⟩

theorem scalar?_isBounded {word : List Char} {v : Value} (h : scalar? word = some v) :
    v.IsBounded := by
  unfold scalar? at h
  split at h
  · obtain rfl := Option.some.inj h
    exact .bool true
  · split at h
    · obtain rfl := Option.some.inj h
      exact .bool false
    · split at h
      · obtain rfl := Option.some.inj h
        exact .date _
      · split at h
        · rename_i i hi
          obtain rfl := Option.some.inj h
          obtain ⟨hmin, hmax⟩ := int?_eq_some hi
          exact .int hmin hmax
        · obtain ⟨x, -, rfl⟩ := Option.map_eq_some_iff.mp h
          exact .float x

theorem scanScalar_isBounded {cs rest : List Char} {v : Value}
    (h : scanScalar cs = some (v, rest)) : v.IsBounded := by
  unfold scanScalar at h
  obtain ⟨w, hw, h⟩ := Option.bind_eq_some_iff.mp h
  have hw := scalar?_isBounded hw
  split at h
  · split at h
    · simp only at h
      split at h
      · cases h
        exact .date _
      · cases h
    · cases h
      exact hw
  · cases h
    exact hw

/-! ## Paths -/

theorem updateLast_forall {α : Type} {P : α → Prop} {f : α → Option α}
    (hf : ∀ a b, P a → f a = some b → P b) {as bs : List α} (has : ∀ a ∈ as, P a)
    (h : updateLast f as = some bs) : ∀ b ∈ bs, P b := by
  induction as generalizing bs with
  | nil => cases h
  | cons a as ih =>
    obtain ⟨ha, has'⟩ := List.forall_mem_cons.mp has
    cases as with
    | nil =>
      obtain ⟨b, hb, rfl⟩ := Option.map_eq_some_iff.mp h
      exact List.forall_mem_singleton.mpr (hf a b ha hb)
    | cons c as =>
      obtain ⟨cs, hcs, rfl⟩ := Option.map_eq_some_iff.mp h
      exact List.forall_mem_cons.mpr ⟨ha, ih has' hcs⟩

theorem descend_isBounded (dotted : Bool) {f : Origin → Entries → Option Entries}
    (hf : ∀ origin es es', IsBoundedTable es → f origin es = some es' → IsBoundedTable es')
    (path : List String) {origin : Origin} {es es' : Entries} (hes : IsBoundedTable es)
    (h : descend dotted f path origin es = some es') : IsBoundedTable es' := by
  induction path generalizing origin es es' with
  | nil => exact hf origin es es' hes h
  | cons key path ih =>
    rw [descend] at h
    split at h
    · obtain ⟨sub, hsub, h⟩ := Option.bind_eq_some_iff.mp h
      cases h
      exact hes.insert key (.table _ (ih isBoundedTable_nil hsub))
    · rename_i inner sub hfind
      split at h
      · cases h
      · obtain ⟨sub', hsub, h⟩ := Option.bind_eq_some_iff.mp h
        cases h
        cases hes.find? hfind with
        | table _ hinner => exact hes.insert key (.table _ (ih hinner hsub))
    · rename_i elements hfind
      obtain ⟨elements', helements, h⟩ := Option.bind_eq_some_iff.mp h
      cases h
      cases hes.find? hfind with
      | tables hinner =>
        refine hes.insert key (.tables (updateLast_forall (P := IsBoundedTable) ?_ hinner helements))
        exact fun a b ha hb => ih ha hb
    · cases h

section
variable {path : List String} {key : String} {v : Value} {es es' : Entries} (hes : IsBoundedTable es)
include hes

theorem assign_isBounded (hv : v.IsBounded) (h : assign path key v es = some es') :
    IsBoundedTable es' := by
  refine descend_isBounded true (fun origin sub sub' hsub hsub' => ?_) path hes h
  split at hsub'
  · cases hsub'
  · cases hsub'
    exact hsub.insert key hv

theorem assignIn_isBounded {section_ : List String} (hv : v.IsBounded)
    (h : assignIn section_ path key v es = some es') : IsBoundedTable es' :=
  descend_isBounded false (fun _ _ _ hsub => assign_isBounded hsub hv) section_ hes h

theorem openTable_isBounded (h : openTable path key es = some es') : IsBoundedTable es' := by
  refine descend_isBounded false (fun origin sub sub' hsub hsub' => ?_) path hes h
  split at hsub'
  · cases hsub'
    exact hsub.insert key (.table _ isBoundedTable_nil)
  · rename_i inner hfind
    cases hsub'
    cases hsub.find? hfind with
    | table _ hinner => exact hsub.insert key (.table _ hinner)
  · cases hsub'

theorem openElement_isBounded (h : openElement path key es = some es') : IsBoundedTable es' := by
  refine descend_isBounded false (fun origin sub sub' hsub hsub' => ?_) path hes h
  split at hsub'
  · cases hsub'
    exact hsub.insert key (.tables (List.forall_mem_singleton.mpr isBoundedTable_nil))
  · rename_i elements hfind
    cases hsub'
    cases hsub.find? hfind with
    | tables hinner =>
      exact hsub.insert key (.tables (List.forall_mem_append.mpr
        ⟨hinner, List.forall_mem_singleton.mpr isBoundedTable_nil⟩))
  · cases hsub'

end

/-! ## Values -/

theorem scan_isBounded (fuel : Nat) :
    (∀ room cs v rest, scanValue fuel room cs = some (v, rest) → v.IsBounded) ∧
    (∀ room cs vs rest, scanItems fuel room cs = some (vs, rest) → ∀ v ∈ vs, v.IsBounded) ∧
    (∀ room es cs es' rest, IsBoundedTable es → scanEntries fuel room es cs = some (es', rest) →
      IsBoundedTable es') := by
  -- the three scanners call each other with less fuel
  induction fuel with
  | zero => exact ⟨nofun, nofun, nofun⟩
  | succ fuel ih =>
    obtain ⟨ihValue, ihItems, ihEntries⟩ := ih
    refine ⟨fun room cs v rest h => ?_, fun room cs vs rest h => ?_,
      fun room es cs es' rest hes h => ?_⟩
    · unfold scanValue at h
      split at h
      · obtain ⟨r, -, h⟩ := Option.map_eq_some_iff.mp h
        cases h
        exact .text _
      · obtain ⟨r, -, h⟩ := Option.map_eq_some_iff.mp h
        cases h
        exact .text _
      · split at h
        · cases h
        · obtain ⟨r, hr, h⟩ := Option.bind_eq_some_iff.mp h
          cases h
          exact .array (ihItems _ _ _ _ hr)
      · split at h
        · cases h
        · split at h
          · cases h
            exact .table _ isBoundedTable_nil
          · obtain ⟨r, hr, h⟩ := Option.bind_eq_some_iff.mp h
            cases h
            exact .table _ (ihEntries _ _ _ _ _ isBoundedTable_nil hr)
      · exact scanScalar_isBounded h
    · rw [scanItems] at h
      obtain ⟨start, -, h⟩ := Option.bind_eq_some_iff.mp h
      split at h
      · cases h
        exact fun _ hv => absurd hv List.not_mem_nil
      · obtain ⟨r, hr, h⟩ := Option.bind_eq_some_iff.mp h
        have hfirst := ihValue _ _ _ _ hr
        obtain ⟨after, -, h⟩ := Option.bind_eq_some_iff.mp h
        split at h
        · obtain ⟨r', hr', h⟩ := Option.bind_eq_some_iff.mp h
          cases h
          exact List.forall_mem_cons.mpr ⟨hfirst, ihItems _ _ _ _ hr'⟩
        · cases h
          exact List.forall_mem_singleton.mpr hfirst
        · cases h
    · rw [scanEntries] at h
      obtain ⟨key, -, h⟩ := Option.bind_eq_some_iff.mp h
      simp only at h
      split at h
      · obtain ⟨r, hr, h⟩ := Option.bind_eq_some_iff.mp h
        obtain ⟨es₁, hes₁, h⟩ := Option.bind_eq_some_iff.mp h
        have hassigned := assign_isBounded hes (ihValue _ _ _ _ hr) hes₁
        split at h
        · exact ihEntries _ _ _ _ _ hassigned h
        · cases h
          exact hassigned
        · cases h
      · cases h

/-! ## Lines -/

section
variable {p q : Place} {cs rest : List Char} (hp : IsBoundedTable p.entries)
include hp

theorem scanHeader_isBounded (h : scanHeader p cs = some (q, rest)) : IsBoundedTable q.entries := by
  unfold scanHeader at h
  split at h
  · obtain ⟨key, -, h⟩ := Option.bind_eq_some_iff.mp h
    simp only at h
    split at h
    · obtain ⟨es, hes, h⟩ := Option.bind_eq_some_iff.mp h
      cases h
      exact openElement_isBounded hp hes
    · cases h
  · obtain ⟨key, -, h⟩ := Option.bind_eq_some_iff.mp h
    simp only at h
    split at h
    · obtain ⟨es, hes, h⟩ := Option.bind_eq_some_iff.mp h
      cases h
      exact openTable_isBounded hp hes
    · cases h
  · cases h

theorem scanEntry_isBounded (h : scanEntry p cs = some (q, rest)) : IsBoundedTable q.entries := by
  unfold scanEntry at h
  obtain ⟨key, -, h⟩ := Option.bind_eq_some_iff.mp h
  simp only at h
  split at h
  · obtain ⟨r, hr, h⟩ := Option.bind_eq_some_iff.mp h
    obtain ⟨es, hes, h⟩ := Option.bind_eq_some_iff.mp h
    cases h
    exact assignIn_isBounded hp ((scan_isBounded _).1 _ _ _ _ hr) hes
  · cases h

end

theorem scanLines_isBounded {fuel : Nat} {p : Place} {cs : List Char} {es : Entries}
    (hp : IsBoundedTable p.entries) (h : scanLines fuel p cs = some es) : IsBoundedTable es := by
  induction fuel generalizing p cs with
  | zero => cases h
  | succ fuel ih =>
    rw [scanLines] at h
    split at h
    · cases h
      exact hp
    · obtain ⟨rest, -, h⟩ := Option.bind_eq_some_iff.mp h
      exact ih hp h
    · obtain ⟨rest, -, h⟩ := Option.bind_eq_some_iff.mp h
      exact ih hp h
    · obtain ⟨rest, -, h⟩ := Option.bind_eq_some_iff.mp h
      exact ih hp h
    · split at h
      · obtain ⟨r, hr, h⟩ := Option.bind_eq_some_iff.mp h
        obtain ⟨rest, -, h⟩ := Option.bind_eq_some_iff.mp h
        exact ih (scanHeader_isBounded hp hr) h
      · obtain ⟨r, hr, h⟩ := Option.bind_eq_some_iff.mp h
        obtain ⟨rest, -, h⟩ := Option.bind_eq_some_iff.mp h
        exact ih (scanEntry_isBounded hp hr) h

/-- All integers of a document have at most 64 bits. -/
theorem read?_isBounded {s : String} {es : Entries} (h : read? s = some es) : IsBoundedTable es :=
  scanLines_isBounded isBoundedTable_nil h

end DeviceHub.Toml
