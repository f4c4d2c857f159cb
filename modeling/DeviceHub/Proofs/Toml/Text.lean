import Mathlib
import DeviceHub.Proofs.Hex
import DeviceHub.Toml.Text

/-!
# TOML strings are read back

* `Unescapes`                    a scanner reads escapes and plain characters one by one;
* `Unescapes.escapeBasic`        such a scanner reads an escaped character as this character;
* `scanBasic_escaped`, `scanLiteral_plain`   the two forms on one line;
* `scanBasicLines_escapeLines`, `scanLiteralLines_raw`   the two forms in tripled quotes;
* `scanText_renderText`          a string in the form that is chosen for it is read back.
-/

namespace DeviceHub.Toml

/-! ## Escapes -/

theorem codePoint?_upper {c : Char} (hc : c.toNat < 0x80) :
    codePoint? ['0', '0', Hex.upper (c.toNat / 16), Hex.upper (c.toNat % 16)] = some c := by
  have hdigits : ['0', '0', Hex.upper (c.toNat / 16), Hex.upper (c.toNat % 16)].mapM Hex.value? =
      some [0, 0, c.toNat / 16, c.toNat % 16] := by
    rw [List.mapM_cons, List.mapM_cons, List.mapM_cons, List.mapM_cons,
      Hex.value?_upper (by omega), Hex.value?_upper (by omega)]
    rfl
  have hvalue : [0, 0, c.toNat / 16, c.toNat % 16].foldl (fun n d => n * 16 + d) 0 = c.toNat := by
    simp only [List.foldl_cons, List.foldl_nil]
    omega
  unfold codePoint?
  rw [hdigits]
  simp only [Option.bind_eq_bind, Option.bind_some, hvalue]
  have hvalid : c.toNat.isValidChar := c.valid
  rw [if_pos hvalid, Char.ofNat_toNat]

/-- A scanner of what stands in double quotes reads escapes and plain characters one by one. -/
structure Unescapes (f : List Char → Option (List Char × List Char)) : Prop where
  short : ∀ {e x} s, shortEscape? e = some x →
    f ('\\' :: e :: s) = (f s).map fun r => (x :: r.1, r.2)
  unit : ∀ {a b c d x} s, codePoint? [a, b, c, d] = some x →
    f ('\\' :: 'u' :: a :: b :: c :: d :: s) = (f s).map fun r => (x :: r.1, r.2)
  plain : ∀ {c} s, isPlain c = true → c ≠ '"' → c ≠ '\\' →
    f (c :: s) = (f s).map fun r => (c :: r.1, r.2)

theorem toNat_lt_of_needsEscape {c : Char} (h : needsEscape c = true) : c.toNat < 0x80 := by
  unfold needsEscape at h
  simp only [Bool.or_eq_true, Bool.and_eq_true, decide_eq_true_eq] at h
  rcases h with ⟨⟨hlt, -⟩, -⟩ | rfl
  · omega
  · decide

theorem isPlain_of_not_needsEscape {c : Char} (h : needsEscape c = false) (hbreak : c ≠ '\n') :
    isPlain c = true := by
  unfold needsEscape at h
  unfold isPlain
  simp only [Bool.or_eq_false_iff, Bool.and_eq_false_iff, decide_eq_false_iff_not, not_lt] at h
  simp only [Bool.or_eq_true, Bool.and_eq_true, decide_eq_true_eq]
  by_cases htab : c = '\t'
  · exact Or.inl htab
  · obtain ⟨(hle | h) | h, hdel⟩ := h
    · exact Or.inr ⟨hle, by simpa using hdel⟩
    · simp [htab] at h
    · simp [hbreak] at h

theorem Unescapes.escapeBasic {f : List Char → Option (List Char × List Char)} (hf : Unescapes f)
    (c : Char) (s : List Char) :
    f (escapeBasic c ++ s) = (f s).map fun r => (c :: r.1, r.2) := by
  unfold Toml.escapeBasic
  split_ifs with h₁ h₂ h₃ h₄ h₅ h₆ h₇ h₈
  iterate 7
    subst c
    exact hf.short s rfl
  · exact hf.unit s (codePoint?_upper (toNat_lt_of_needsEscape h₈))
  · exact hf.plain s (isPlain_of_not_needsEscape (Bool.eq_false_iff.mpr h₈) h₅) h₇ h₆

theorem escapeBasic_head (c : Char) :
    ∃ d ds, escapeBasic c = d :: ds ∧ d ≠ '"' ∧ d ≠ '\n' ∧ d ≠ '\r' := by
  unfold escapeBasic
  split_ifs with h₁ h₂ h₃ h₄ h₅ h₆ h₇ h₈
  case neg => exact ⟨c, [], rfl, h₇, h₅, h₄⟩
  all_goals exact ⟨'\\', _, rfl, by decide⟩

/-! ## One line -/

theorem shortEscape?_ne {e x : Char} (h : shortEscape? e = some x) : e ≠ 'u' ∧ e ≠ 'U' := by
  constructor
  · rintro rfl
    cases h
  · rintro rfl
    cases h

theorem unescapes_scanBasic : Unescapes scanBasic where
  short {e x} s h := by
    obtain ⟨hu, hU⟩ := shortEscape?_ne h
    rw [scanBasic, h]
    · cases scanBasic s <;> rfl
    · exact fun _ _ _ _ _ he => absurd he hu
    · exact fun _ _ _ _ _ _ _ _ _ he => absurd he hU
  unit {a b c d x} s h := by
    rw [scanBasic, h]
    cases scanBasic s <;> rfl
  plain {c} s h hquote hback := by
    rw [scanBasic, if_pos h]
    · cases scanBasic s <;> rfl
    · exact hquote
    · exact fun _ _ _ _ _ he => absurd he hback
    · exact fun _ _ _ _ _ _ _ _ _ he => absurd he hback
    · exact fun _ _ he => absurd he hback
    · exact fun he => absurd he hback

theorem scanBasic_escaped (cs rest : List Char) :
    scanBasic (cs.flatMap escapeBasic ++ '"' :: rest) = some (cs, rest) := by
  induction cs with
  | nil => rfl
  | cons c cs ih =>
    rw [List.flatMap_cons, List.append_assoc, unescapes_scanBasic.escapeBasic, ih]
    rfl

theorem scanLiteral_plain {cs : List Char} (h : ∀ c ∈ cs, isPlain c = true ∧ c ≠ '\'')
    (rest : List Char) : scanLiteral (cs ++ '\'' :: rest) = some (cs, rest) := by
  induction cs with
  | nil => rfl
  | cons c cs ih =>
    obtain ⟨⟨hplain, hquote⟩, hcs⟩ := List.forall_mem_cons.mp h
    rw [List.cons_append, scanLiteral, if_pos hplain, ih hcs]
    · rfl
    · exact hquote

/-! ## Tripled quotes -/

/-- A scanner of what stands in tripled quotes `q` takes up to two of them in front of the closing
ones, and reads the characters that are `ok` one by one, as long as the quotes do not become three. -/
structure Tripled (f : List Char → Option (List Char × List Char)) (q : Char) (ok : Char → Prop) :
    Prop where
  close : ∀ {n rest}, n ≤ 2 → rest.head? ≠ some q →
    f (List.replicate n q ++ q :: q :: q :: rest) = some (List.replicate n q, rest)
  char : ∀ {c s}, ok c → (c = q → ∀ t, s ≠ q :: q :: t) →
    f (c :: s) = (f s).map fun r => (c :: r.1, r.2)

theorem Tripled.quotes {f : List Char → Option (List Char × List Char)} {q : Char} {ok : Char → Prop}
    (hf : Tripled f q ok) (hq : ok q) {n : Nat} (hn : n ≤ 2) {s : List Char}
    (hs : s.head? ≠ some q) :
    f (List.replicate n q ++ s) = (f s).map fun r => (List.replicate n q ++ r.1, r.2) := by
  have hone : f (q :: s) = (f s).map fun r => (q :: r.1, r.2) := by
    refine hf.char hq fun _ t h => hs ?_
    rw [h]
    rfl
  have htwo : f (q :: q :: s) = (f (q :: s)).map fun r => (q :: r.1, r.2) := by
    refine hf.char hq fun _ t h => hs ?_
    rw [(List.cons.inj h).2]
    rfl
  interval_cases n
  · cases h : f s <;> simp [h]
  · exact hone
  · show f (q :: q :: s) = _
    rw [htwo, hone]
    cases f s <;> rfl

theorem endsLine_of_shortEscape? {e x : Char} (h : shortEscape? e = some x) (s : List Char) :
    endsLine (e :: s) = false := by
  unfold shortEscape? at h
  split at h <;> first | rfl | cases h

theorem ne_carriageReturn_of_isPlain {c : Char} (h : isPlain c = true ∨ c = '\n') : c ≠ '\r' := by
  rintro rfl
  exact absurd h (by decide)

theorem tripled_scanBasicLines : Tripled (scanBasicLines false) '"'
    fun c => (isPlain c = true ∨ c = '\n') ∧ c ≠ '\\' where
  close {n rest} hn hrest := by
    have hnext : ∀ t, rest ≠ '"' :: t := by
      rintro t rfl
      exact hrest rfl
    interval_cases n
    · show scanBasicLines false ('"' :: '"' :: '"' :: rest) = _
      rw [scanBasicLines]
      · rfl
      · exact fun t => hnext _
      · exact hnext
    · show scanBasicLines false ('"' :: '"' :: '"' :: '"' :: rest) = _
      rw [scanBasicLines]
      · rfl
      · exact hnext
    · rfl
  char {c s} hok hquote := by
    obtain ⟨hc, hback⟩ := hok
    have hreads : (isPlain c || decide (c = '\n')) = true := by simpa using hc
    rw [scanBasicLines, Bool.false_and, if_neg Bool.false_ne_true, if_pos hreads]
    · exact fun t hq h => hquote hq _ h
    · exact fun t hq h => hquote hq _ h
    · exact fun t hq h => hquote hq _ h
    · exact fun _ _ _ _ _ h => absurd h hback
    · exact fun _ _ _ _ _ _ _ _ _ h => absurd h hback
    · exact hback
    · exact fun _ h => absurd h (ne_carriageReturn_of_isPlain hc)

theorem unescapes_scanBasicLines : Unescapes (scanBasicLines false) where
  short {e x} s h := by
    obtain ⟨hu, hU⟩ := shortEscape?_ne h
    rw [scanBasicLines, endsLine_of_shortEscape? h, h]
    · cases scanBasicLines false s <;> rfl
    · exact fun _ _ _ _ _ he => absurd (List.cons.inj he).1 hu
    · exact fun _ _ _ _ _ _ _ _ _ he => absurd (List.cons.inj he).1 hU
  unit {a b c d x} s h := by
    rw [scanBasicLines, h]
    cases scanBasicLines false s <;> rfl
  plain {c} s h hquote hback :=
    tripled_scanBasicLines.char ⟨Or.inl h, hback⟩ fun hc => absurd hc hquote

/-- The inside of tripled double quotes is read back, the quotes in front of it included. -/
theorem scanBasicLines_escapeLines (cs : List Char) {n : Nat} (hn : n ≤ 2) {rest : List Char}
    (hrest : rest.head? ≠ some '"') :
    scanBasicLines false (List.replicate n '"' ++ (escapeLines n cs ++ '"' :: '"' :: '"' :: rest)) =
      some (List.replicate n '"' ++ cs, rest) := by
  have hok : (isPlain '"' = true ∨ '"' = '\n') ∧ '"' ≠ '\\' := by decide
  induction cs generalizing n with
  | nil =>
    rw [List.append_nil]
    exact tripled_scanBasicLines.close hn hrest
  | cons c cs ih =>
    have hread := ih (Nat.zero_le 2)
    rw [List.replicate_zero, List.nil_append, List.nil_append] at hread
    by_cases hquote : c = '"'
    · subst hquote
      rw [escapeLines, if_pos rfl]
      by_cases hfew : n < 2
      · -- one more quote as it is
        have hmore := ih (by omega : n + 1 ≤ 2)
        rw [List.replicate_succ', List.append_assoc, List.append_assoc] at hmore
        rw [if_pos hfew]
        exact hmore
      · -- the third quote is escaped
        rw [if_neg hfew]
        show scanBasicLines false (_ ++ '\\' :: '"' :: (escapeLines 0 cs ++ _)) = _
        rw [tripled_scanBasicLines.quotes hok hn (by simp), unescapes_scanBasicLines.short _ rfl,
          hread]
        rfl
    · obtain ⟨d, ds, hhead, hd, -, -⟩ := escapeBasic_head c
      rw [escapeLines, if_neg hquote, List.append_assoc]
      by_cases hbreak : c = '\n'
      · subst hbreak
        rw [if_pos rfl, tripled_scanBasicLines.quotes hok hn (by simp), List.singleton_append,
          tripled_scanBasicLines.char (by decide) fun h => absurd h (by decide), hread]
        rfl
      · rw [if_neg hbreak, tripled_scanBasicLines.quotes hok hn (by rw [hhead]; simpa using hd),
          unescapes_scanBasicLines.escapeBasic, hread]
        rfl

theorem tripled_scanLiteralLines : Tripled scanLiteralLines '\''
    fun c => isPlain c = true ∨ c = '\n' where
  close {n rest} hn hrest := by
    have hnext : ∀ t, rest ≠ '\'' :: t := by
      rintro t rfl
      exact hrest rfl
    interval_cases n
    · show scanLiteralLines ('\'' :: '\'' :: '\'' :: rest) = _
      rw [scanLiteralLines]
      · rfl
      · exact fun t => hnext _
      · exact hnext
    · show scanLiteralLines ('\'' :: '\'' :: '\'' :: '\'' :: rest) = _
      rw [scanLiteralLines]
      · rfl
      · exact hnext
    · rfl
  char {c s} hc hquote := by
    have hreads : (isPlain c || decide (c = '\n')) = true := by simpa using hc
    rw [scanLiteralLines, if_pos hreads]
    · exact fun t hq h => hquote hq _ h
    · exact fun t hq h => hquote hq _ h
    · exact fun t hq h => hquote hq _ h
    · exact fun _ h => absurd h (ne_carriageReturn_of_isPlain hc)

/-- The inside of tripled single quotes is read back, the quotes in front of it included, when there
are nowhere three in a row. -/
theorem scanLiteralLines_raw {cs : List Char} (hcs : ∀ c ∈ cs, isPlain c = true ∨ c = '\n') {n : Nat}
    (hrun : longestRun '\'' n cs ≤ 2) {rest : List Char} (hrest : rest.head? ≠ some '\'') :
    scanLiteralLines (List.replicate n '\'' ++ (cs ++ '\'' :: '\'' :: '\'' :: rest)) =
      some (List.replicate n '\'' ++ cs, rest) := by
  induction cs generalizing n with
  | nil =>
    rw [List.append_nil]
    exact tripled_scanLiteralLines.close hrun hrest
  | cons c cs ih =>
    obtain ⟨hc, htail⟩ := List.forall_mem_cons.mp hcs
    rw [longestRun] at hrun
    by_cases hquote : c = '\''
    · subst hquote
      rw [if_pos rfl] at hrun
      have hmore := ih htail hrun
      rw [List.replicate_succ', List.append_assoc, List.append_assoc] at hmore
      exact hmore
    · rw [if_neg hquote, max_le_iff] at hrun
      have hread := ih htail hrun.2
      rw [List.replicate_zero, List.nil_append, List.nil_append] at hread
      rw [tripled_scanLiteralLines.quotes (by decide) hrun.1 (by simpa using hquote),
        List.cons_append, tripled_scanLiteralLines.char hc fun h => absurd h hquote, hread]
      rfl

/-! ## All forms -/

theorem plain_of_literal {cs : List Char} (h : formOf cs = .literal) :
    ∀ c ∈ cs, isPlain c = true ∧ c ≠ '\'' := by
  unfold formOf at h
  simp only at h
  split_ifs at h with h₁ h₂
  simp only [Bool.and_eq_true, Bool.not_eq_true', decide_eq_true_eq, decide_eq_false_iff_not,
    List.any_eq_false, Bool.not_eq_true] at h₂
  obtain ⟨⟨hescape, hquote⟩, hbreak⟩ := h₂
  intro c hc
  exact ⟨isPlain_of_not_needsEscape (hescape c hc) fun h => hbreak (h ▸ hc),
    fun h => hquote (h ▸ hc)⟩

theorem plain_of_literalLines {cs : List Char} (h : formOf cs = .literalLines) :
    (∀ c ∈ cs, isPlain c = true ∨ c = '\n') ∧ longestRun '\'' 0 cs ≤ 2 := by
  unfold formOf at h
  simp only at h
  split_ifs at h with h₁ h₂ h₃ h₄
  simp only [Bool.and_eq_true, Bool.not_eq_true', decide_eq_true_eq, List.any_eq_false,
    Bool.not_eq_true] at h₄
  obtain ⟨hescape, hrun⟩ := h₄
  refine ⟨fun c hc => ?_, hrun⟩
  by_cases hbreak : c = '\n'
  · exact Or.inr hbreak
  · exact Or.inl (isPlain_of_not_needsEscape (hescape c hc) hbreak)

theorem dropBreak_leadingBreak (cs : List Char) {inside : List Char}
    (h : '\n' ∉ cs → inside.head? ≠ some '\n' ∧ inside.head? ≠ some '\r') :
    dropBreak (leadingBreak cs ++ inside) = inside := by
  unfold leadingBreak
  by_cases hbreak : '\n' ∈ cs
  · rw [if_pos hbreak]
    rfl
  · obtain ⟨hn, hr⟩ := h hbreak
    rw [if_neg hbreak, List.nil_append]
    unfold dropBreak
    split
    · exact absurd rfl hn
    · exact absurd rfl hr
    · rfl

theorem scanText_line {q : Char} {cs : List Char} (h : ∀ t, cs ≠ q :: q :: t) :
    scanText (q :: cs) = scanLineText (q :: cs) := by
  unfold scanText
  split
  · rename_i heq
    obtain ⟨rfl, hcs⟩ := List.cons.inj heq
    exact absurd hcs (h _)
  · rename_i heq
    obtain ⟨rfl, hcs⟩ := List.cons.inj heq
    exact absurd hcs (h _)
  · rfl

section
variable {rest : List Char} (hdouble : rest.head? ≠ some '"') (hsingle : rest.head? ≠ some '\'')

include hdouble in
theorem scanText_basic (cs : List Char) :
    scanText (renderIn cs .basic ++ rest) = some (cs, rest) := by
  have hshape : renderIn cs .basic ++ rest = '"' :: (cs.flatMap escapeBasic ++ '"' :: rest) := by
    rw [renderIn, List.cons_append, List.append_assoc]
    rfl
  rw [hshape, scanText_line]
  · exact scanBasic_escaped cs rest
  · intro t heq
    cases cs with
    | nil =>
      obtain ⟨-, hrest⟩ := List.cons.inj (show '"' :: rest = '"' :: '"' :: t from heq)
      exact hdouble (hrest ▸ rfl)
    | cons c cs =>
      obtain ⟨d, ds, hhead, hd, -, -⟩ := escapeBasic_head c
      rw [List.flatMap_cons, hhead] at heq
      exact hd (List.cons.inj heq).1

include hsingle in
theorem scanText_literal {cs : List Char} (h : formOf cs = .literal) :
    scanText (renderIn cs .literal ++ rest) = some (cs, rest) := by
  have hplain := plain_of_literal h
  have hshape : renderIn cs .literal ++ rest = '\'' :: (cs ++ '\'' :: rest) := by
    rw [renderIn, List.cons_append, List.append_assoc]
    rfl
  rw [hshape, scanText_line]
  · exact scanLiteral_plain hplain rest
  · intro t heq
    cases cs with
    | nil =>
      obtain ⟨-, hrest⟩ := List.cons.inj (show '\'' :: rest = '\'' :: '\'' :: t from heq)
      exact hsingle (hrest ▸ rfl)
    | cons c cs => exact (hplain c List.mem_cons_self).2 (List.cons.inj heq).1

include hdouble in
theorem scanText_basicLines (cs : List Char) :
    scanText (renderIn cs .basicLines ++ rest) = some (cs, rest) := by
  have hshape : renderIn cs .basicLines ++ rest = '"' :: '"' :: '"' ::
      (leadingBreak cs ++ (escapeLines 0 cs ++ '"' :: '"' :: '"' :: rest)) := by
    simp [renderIn]
  rw [hshape, scanText, dropBreak_leadingBreak]
  · exact scanBasicLines_escapeLines cs (Nat.zero_le 2) hdouble
  · intro hbreak
    cases cs with
    | nil => simp [escapeLines]
    | cons c cs =>
      obtain ⟨d, ds, hhead, -, hn, hr⟩ := escapeBasic_head c
      rw [escapeLines]
      by_cases hquote : c = '"'
      · simp [hquote]
      · have hc : c ≠ '\n' := fun h => hbreak (h ▸ List.mem_cons_self)
        rw [if_neg hquote, if_neg hc, hhead]
        exact ⟨fun h => hn (Option.some.inj h), fun h => hr (Option.some.inj h)⟩

include hsingle in
theorem scanText_literalLines {cs : List Char} (h : formOf cs = .literalLines) :
    scanText (renderIn cs .literalLines ++ rest) = some (cs, rest) := by
  obtain ⟨hplain, hrun⟩ := plain_of_literalLines h
  have hshape : renderIn cs .literalLines ++ rest = '\'' :: '\'' :: '\'' ::
      (leadingBreak cs ++ (cs ++ '\'' :: '\'' :: '\'' :: rest)) := by
    simp [renderIn]
  rw [hshape, scanText, dropBreak_leadingBreak]
  · exact scanLiteralLines_raw hplain (n := 0) hrun hsingle
  · intro hbreak
    cases cs with
    | nil => simp
    | cons c cs =>
      have hc : c ≠ '\n' := fun h => hbreak (h ▸ List.mem_cons_self)
      have hr : c ≠ '\r' := ne_carriageReturn_of_isPlain (hplain c List.mem_cons_self)
      exact ⟨fun h => hc (Option.some.inj h), fun h => hr (Option.some.inj h)⟩

include hdouble hsingle in
/-- A string is read back from the form that is chosen for it, when no quote follows. -/
theorem scanText_renderText (s : String) :
    scanText (renderText s ++ rest) = some (s.toList, rest) := by
  unfold renderText
  cases hform : formOf s.toList with
  | basic => exact scanText_basic hdouble _
  | literal => exact scanText_literal hsingle hform
  | basicLines => exact scanText_basicLines hdouble _
  | literalLines => exact scanText_literalLines hsingle hform

end

end DeviceHub.Toml
