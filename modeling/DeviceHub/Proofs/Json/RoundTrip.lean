import DeviceHub.Proofs.Json.Record
import DeviceHub.Proofs.Json.Scan
import DeviceHub.Proofs.Text.Utf8

/-!
# Values are read back

* `Doc.depth`               how deep the arrays and objects of a document are nested;
* `Codec.Restores`          a codec reads back what it writes of a value, as long as there is room;
* `Codec.Restores.decode_encode`   and so it does from the octets, which hold 127 levels;
* `Codec.restores_text`, `restores_bool`, `restores_int64`, `Restores.some`   codecs that do;
* `Field.Restores`          what a field writes of a record brings another one to agree with it;
* `Record.Rebuilds`         fields bring a record to another one, step by step;
* `Record.Rebuilds.restores`   a record that its fields bring about from the empty one is read back.
-/

namespace DeviceHub.Json

variable {σ α : Type}

namespace Doc

mutual

/-- the number of arrays and objects around the innermost place of a document -/
def depth : Doc → Nat
  | .array items => depthItems items + 1
  | .object members => depthMembers members + 1
  | _ => 0

def depthItems : List Doc → Nat
  | [] => 0
  | d :: ds => max (depth d) (depthItems ds)

def depthMembers : List (Option String × Doc) → Nat
  | [] => 0
  | (_, d) :: ms => max (depth d) (depthMembers ms)

end

theorem depthMembers_le {ms : List (Option String × Doc)} {room : Nat} :
    depthMembers ms ≤ room ↔ ∀ m ∈ ms, m.2.depth ≤ room := by
  induction ms with
  | nil => simp [depthMembers]
  | cons m ms ih => rw [depthMembers, max_le_iff, ih, List.forall_mem_cons]

end Doc

namespace Codec

/-- A codec reads back what it writes of a value, exactly when there is room for it. -/
structure Restores (c : Codec α) (a : α) : Prop where
  written : (c.write a).Written
  read : ∀ {room}, (c.write a).depth ≤ room → c.read room (c.write a) = .ok a
  fits : ∀ {room b}, c.read room (c.write a) = .ok b → (c.write a).depth ≤ room

/-- A value comes back from its octets exactly when it is nested at most 127 deep. -/
theorem Restores.decode_encode {c : Codec α} {a : α} (h : c.Restores a) :
    c.decode (Text.Utf8.encode (c.encode a)) = .ok a ↔ (c.write a).depth ≤ maxDepth := by
  unfold decode decodeSymbols encode
  rw [Text.Utf8.decode_encode, Doc.scan_render h.written]
  simp only
  constructor
  · intro hread
    split at hread
    · cases hread
    · exact h.fits ‹_›
  · intro hdepth
    rw [h.read hdepth]
    rfl

theorem restores_text (s : String) : text.Restores s where
  written := .string s
  read _ := rfl
  fits _ := Nat.zero_le _

theorem restores_bool (b : Bool) : bool.Restores b where
  written := .bool b
  read _ := rfl
  fits _ := Nat.zero_le _

theorem restores_int64 (i : Int64) : int64.Restores i where
  written := .number (Numeral.spelled_ofInt _)
  read {room} _ := by
    have hlow : -0x8000000000000000 ≤ i.toInt := Int64.le_toInt i
    have hhigh : i.toInt ≤ 0x7fffffffffffffff := Int64.toInt_le i
    have hnum : readNum (.int i.toInt) = .ok (.int i.toInt) := by
      unfold readNum Doc.int
      simp only [Numeral.value?_toInt]
    have hint : (intWithin (-0x8000000000000000) 0x7fffffffffffffff).read room (.int i.toInt) =
        .ok i.toInt := by
      unfold intWithin
      simp only [hnum, bind, Except.bind, if_pos (And.intro hlow hhigh)]
    show ((intWithin _ _).read room (.int i.toInt)).map Int64.ofInt = _
    rw [hint, Except.map, Int64.ofInt_toInt]
  fits _ := Nat.zero_le _

theorem option_read (c : Codec α) (room : Nat) {d : Doc} (hd : d ≠ .null) :
    (option c).read room d = (c.read room d).map some := by
  cases d with
  | null => exact absurd rfl hd
  | _ => rfl

theorem Restores.some {c : Codec α} {a : α} (h : c.Restores a) (hnull : c.write a ≠ .null) :
    (option c).Restores (some a) where
  written := h.written
  read {room} hdepth := by
    show (option c).read room (c.write a) = _
    rw [option_read c room hnull, h.read hdepth]
    rfl
  fits {room b} hread := by
    have hmap : (c.read room (c.write a)).map Option.some = .ok b := option_read c room hnull ▸ hread
    cases hvalue : c.read room (c.write a) with
    | error e =>
      rw [hvalue] at hmap
      cases hmap
    | ok a' => exact h.fits hvalue

end Codec

namespace Field

/-- What a field writes of `v` brings `u` to `w`: what is written is read so, and when nothing is
written they are the same already. -/
structure Restores (f : Field σ) (v u w : σ) : Prop where
  written : ∀ d ∈ f.write v, d.Written
  read : ∀ d ∈ f.write v, ∀ room, d.depth ≤ room → f.read room d u = .ok w
  fits : ∀ d ∈ f.write v, ∀ room u' w', f.read room d u' = .ok w' → d.depth ≤ room
  absent : f.write v = none → u = w

theorem restores_omitted {name : String} {c : Codec α} {get : σ → α} {set : α → σ → σ}
    {absent : α → Bool} {u v : σ} (hgiven : absent (get v) = false → c.Restores (get v))
    (habsent : absent (get v) = true → u = set (get v) u) :
    (omitted name c get set absent).Restores v u (set (get v) u) := by
  have hwrite : (omitted name c get set absent).write v =
    if absent (get v) then none else some (c.write (get v)) := rfl
  cases hcase : absent (get v) with
  | true =>
    rw [hcase, if_pos rfl] at hwrite
    have hnone : ∀ d ∈ (omitted name c get set absent).write v, False := by
      rw [hwrite]
      nofun
    exact ⟨fun d hd => (hnone d hd).elim, fun d hd => (hnone d hd).elim,
      fun d hd => (hnone d hd).elim, fun _ => habsent hcase⟩
  | false =>
    rw [hcase, if_neg Bool.false_ne_true] at hwrite
    have hc := hgiven hcase
    refine ⟨?_, ?_, ?_, ?_⟩
    · rintro d hd
      obtain rfl : c.write (get v) = d := Option.some.inj (hwrite.symm.trans hd)
      exact hc.written
    · rintro d hd room hdepth
      obtain rfl : c.write (get v) = d := Option.some.inj (hwrite.symm.trans hd)
      show (c.read room (c.write (get v))).map _ = _
      rw [hc.read hdepth]
      rfl
    · rintro d hd room u' w' hread
      obtain rfl : c.write (get v) = d := Option.some.inj (hwrite.symm.trans hd)
      obtain ⟨a, ha, -⟩ := read_omitted hread
      exact hc.fits ha
    · intro hnone
      rw [hwrite] at hnone
      cases hnone

theorem restores_plain {name : String} {c : Codec α} {get : σ → α} {set : α → σ → σ} {v : σ}
    (h : c.Restores (get v)) (u : σ) : (plain name c get set).Restores v u (set (get v) u) :=
  restores_omitted (fun _ => h) nofun

theorem Restores.required {f : Field σ} {v u w : σ} (h : f.Restores v u w) :
    f.required.Restores v u w := ⟨h.written, h.read, h.fits, h.absent⟩

end Field

namespace Record

/-- the members that fields write -/
def written (fs : List (Field σ)) (v : σ) : List (Option String × Doc) :=
  fs.filterMap fun f => (f.write v).map fun d => (some f.name, d)

theorem codec_write (r : Record σ) (v : σ) : r.codec.write v = .object (written r.fields v) := by
  show Doc.object (List.map _ (List.filterMap _ _)) = _
  rw [List.map_filterMap]
  simp only [Option.map_map, Function.comp_def]
  rfl

theorem mem_written {fs : List (Field σ)} {v : σ} {m : Option String × Doc} :
    m ∈ written fs v ↔ ∃ f ∈ fs, ∃ d ∈ f.write v, m = (some f.name, d) := by
  unfold written
  rw [List.mem_filterMap]
  refine exists_congr fun f => and_congr_right fun _ => ?_
  rw [Option.map_eq_some_iff]
  exact exists_congr fun d => and_congr_right fun _ => eq_comm

/-- Fields bring one record to another: each takes what it writes of `v` over. -/
inductive Rebuilds (v : σ) : σ → List (Field σ) → σ → Prop
  | nil (u : σ) : Rebuilds v u [] u
  | cons {f : Field σ} {fs : List (Field σ)} {t u w : σ} (hf : f.Restores v t u)
    (hfs : Rebuilds v u fs w) : Rebuilds v t (f :: fs) w

theorem Rebuilds.restores_of_mem {v u w : σ} {fs : List (Field σ)} (h : Rebuilds v u fs w) :
    ∀ f ∈ fs, ∃ t t', f.Restores v t t' := by
  induction h with
  | nil => exact nofun
  | cons hf _ ih => exact List.forall_mem_cons.mpr ⟨⟨_, _, hf⟩, ih⟩

variable {fields : List (Field σ)} {room : Nat}

/-- What fields write is taken over field by field, and each field that is written is then seen. -/
theorem Rebuilds.readMembers {fs : List (Field σ)} {v u w : σ} (h : Rebuilds v u fs w)
    (hfind : ∀ f ∈ fs, fields.find? (·.name = f.name) = some f)
    (hnodup : (fs.map (·.name)).Nodup) (hdepth : ∀ m ∈ written fs v, m.2.depth ≤ room)
    {seen : List String} (hseen : ∀ f ∈ fs, f.name ∉ seen) :
    ∃ seen', Record.readMembers fields room u seen (written fs v) = .ok (w, seen') ∧
      seen ⊆ seen' ∧ ∀ f ∈ fs, (f.write v).isSome → f.name ∈ seen' := by
  induction h generalizing seen with
  | nil => exact ⟨seen, rfl, List.Subset.refl _, nofun⟩
  | @cons f fs t u w hf hfs ih =>
    rw [List.map_cons, List.nodup_cons] at hnodup
    obtain ⟨hfind_f, hfind⟩ := List.forall_mem_cons.mp hfind
    obtain ⟨hseen_f, hseen⟩ := List.forall_mem_cons.mp hseen
    cases hwrite : f.write v with
    | none =>
      have hcons : written (f :: fs) v = written fs v := by
        rw [written, List.filterMap_cons_none (by rw [hwrite]; rfl)]
        rfl
      rw [hcons] at hdepth ⊢
      obtain ⟨seen', hread, hsub, hall⟩ := ih hfind hnodup.2 hdepth hseen
      refine ⟨seen', hf.absent hwrite ▸ hread, hsub, List.forall_mem_cons.mpr ⟨?_, hall⟩⟩
      rw [hwrite]
      nofun
    | some d =>
      have hcons : written (f :: fs) v = (some f.name, d) :: written fs v := by
        rw [written, List.filterMap_cons_some (by rw [hwrite]; rfl)]
        rfl
      rw [hcons] at hdepth ⊢
      obtain ⟨hdepth_d, hdepth⟩ := List.forall_mem_cons.mp hdepth
      -- the name is new to the fields behind, because names do not repeat
      have hseen' : ∀ g ∈ fs, g.name ∉ f.name :: seen := by
        intro g hg hmem
        rcases List.mem_cons.mp hmem with heq | hmem
        · exact hnodup.1 (heq ▸ List.mem_map_of_mem hg)
        · exact hseen g hg hmem
      obtain ⟨seen', hread, hsub, hall⟩ := ih hfind hnodup.2 hdepth hseen'
      refine ⟨seen', ?_, fun k hk => hsub (List.mem_cons_of_mem _ hk),
        List.forall_mem_cons.mpr ⟨fun _ => hsub List.mem_cons_self, hall⟩⟩
      rw [Record.readMembers]
      simp only [hfind_f, if_neg hseen_f, hf.read d hwrite room hdepth_d]
      exact hread

theorem read_of_readMembers {v w : σ} {seen seen' : List String} {ms : List (Option String × Doc)}
    (h : readMembers fields room v seen ms = .ok (w, seen')) {name : String} {d : Doc}
    (hm : (some name, d) ∈ ms) {f : Field σ} (hfind : fields.find? (·.name = name) = some f) :
    ∃ u u', f.read room d u = .ok u' := by
  induction ms generalizing v seen with
  | nil => cases hm
  | cons m ms ih =>
    obtain ⟨key, hkey, ⟨hnone, hrest⟩ | ⟨g, u, hsome, -, hread, hrest⟩⟩ := readMembers_cons h
    · rcases List.mem_cons.mp hm with rfl | hm
      · obtain rfl : name = key := Option.some.inj hkey
        rw [hfind] at hnone
        cases hnone
      · exact ih hrest hm
    · rcases List.mem_cons.mp hm with rfl | hm
      · obtain rfl : name = key := Option.some.inj hkey
        obtain rfl : f = g := Option.some.inj (hfind.symm.trans hsome)
        exact ⟨v, u, hread⟩
      · exact ih hrest hm

theorem find?_of_mem (hnodup : (fields.map (·.name)).Nodup) {f : Field σ} (hf : f ∈ fields) :
    fields.find? (·.name = f.name) = some f := by
  induction fields with
  | nil => cases hf
  | cons g fields ih =>
    rw [List.map_cons, List.nodup_cons] at hnodup
    rcases List.mem_cons.mp hf with rfl | hf
    · exact List.find?_cons_of_pos (decide_eq_true rfl)
    · have hne : g.name ≠ f.name := fun heq => hnodup.1 (heq ▸ List.mem_map_of_mem hf)
      rw [List.find?_cons_of_neg (by simpa using hne)]
      exact ih hnodup.2 hf

/-- A record that its fields bring about from the empty one is read back from what they write, when
their names do not repeat and those that have to be given are written. -/
theorem Rebuilds.restores {r : Record σ} {v : σ} (h : Rebuilds v r.base r.fields v)
    (hnodup : (r.fields.map (·.name)).Nodup)
    (hgiven : ∀ f ∈ r.fields, f.missing = .nowhere → (f.write v).isSome) : r.codec.Restores v where
  written := by
    rw [codec_write]
    refine .object (fun m hm => ?_) (fun m hm => ?_)
    · obtain ⟨f, hf, d, hd, rfl⟩ := mem_written.mp hm
      rfl
    · obtain ⟨f, hf, d, hd, rfl⟩ := mem_written.mp hm
      obtain ⟨t, t', hrestores⟩ := h.restores_of_mem f hf
      exact hrestores.written d hd
  read {room} hdepth := by
    rw [codec_write, Doc.depth] at hdepth
    obtain ⟨room, rfl⟩ := Nat.exists_eq_add_one_of_ne_zero (Nat.ne_zero_of_lt hdepth)
    obtain ⟨seen, hread, -, hseen⟩ := h.readMembers (fun f hf => find?_of_mem hnodup hf) hnodup
      (Doc.depthMembers_le.mp (Nat.le_of_succ_le_succ hdepth)) (fun _ _ => List.not_mem_nil)
    have hall : (r.fields.all fun f => f.missing ≠ .nowhere || f.name ∈ seen) = true := by
      refine List.all_eq_true.mpr fun f hf => ?_
      by_cases hm : f.missing = .nowhere
      · simp [hseen f hf (hgiven f hf hm)]
      · simp [hm]
    rw [codec_write]
    show r.read (room + 1) (.object _) = _
    unfold read
    simp only [enter, bind, Except.bind, hread]
    rw [if_pos hall]
  fits {room w} hread := by
    rw [codec_write] at hread ⊢
    obtain ⟨inner, seen, hroom, hms⟩ := read_object hread
    obtain rfl : room = inner + 1 := by
      cases room with
      | zero => cases hroom
      | succ room => exact congrArg (· + 1) (Except.ok.inj hroom)
    rw [Doc.depth]
    refine Nat.succ_le_succ (Doc.depthMembers_le.mpr fun m hm => ?_)
    obtain ⟨f, hf, d, hd, rfl⟩ := mem_written.mp hm
    obtain ⟨t, t', hrestores⟩ := h.restores_of_mem f hf
    obtain ⟨u, u', hu⟩ := read_of_readMembers hms hm (find?_of_mem hnodup hf)
    exact hrestores.fits d hd inner u u' hu

end Record

end DeviceHub.Json
