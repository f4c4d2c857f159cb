import DeviceHub.Json.Scan
import DeviceHub.Proofs.Hex
import DeviceHub.Proofs.Json.Number

/-!
# Documents are read back

* `scanString_quote`    a text in quotes is read back, whatever it holds;
* `scanNumber_chars`    a numeral is read back when what follows does not go on with it;
* `Doc.Written`         a document has a written form;
* `Doc.Written.reads`   its characters are read as this document, up to their end;
* `Doc.scan_render`     and so is its text.
-/

namespace DeviceHub.Json

open Text.Utf8 (Symbol)

/-! ## Strings -/

def pieceOf (c : Char) : Piece :=
  if c.toNat < 0x20 ∧ c ∉ ['\x08', '\x0c', '\n', '\r', '\t'] then .unit c.toNat else .raw (some c)

theorem scanPieces_plain {c : Char} (hquote : c ≠ '"') (hback : c ≠ '\\') (hplain : 0x20 ≤ c.toNat)
    (s : List Symbol) :
    scanPieces (some c :: s) = (scanPieces s).map fun r => (.raw (some c) :: r.1, r.2) := by
  rw [scanPieces]
  · have hnot : ¬ (some c).any (fun c => decide (c.toNat < 0x20)) = true := by
      simp only [Option.any_some, decide_eq_true_eq]
      omega
    rw [if_neg hnot]
    cases scanPieces s <;> rfl
  · rintro ⟨⟩
    exact hquote rfl
  · rintro a b c' d rest ⟨⟩
    exact absurd rfl hback
  · rintro e rest ⟨⟩
    exact absurd rfl hback
  · rintro ⟨⟩
    exact absurd rfl hback

/-- A control character is read from its four hexadecimal digits. -/
theorem scanPieces_unit {n : Nat} (hn : n < 0x20) (s : List Symbol) :
    scanPieces (['\\', 'u', '0', '0', Hex.lower (n / 16), Hex.lower (n % 16)].map some ++ s) =
      (scanPieces s).map fun r => (.unit n :: r.1, r.2) := by
  have hhex : hex4? (some '0') (some '0') (some (Hex.lower (n / 16)))
      (some (Hex.lower (n % 16))) = some n := by
    have hzero : Hex.value? '0' = some 0 := rfl
    unfold hex4?
    simp only [Option.bind_eq_bind, Option.bind_some, hzero]
    rw [Hex.value?_lower (by omega), Hex.value?_lower (by omega)]
    have hvalue : ((0 * 16 + 0) * 16 + n / 16) * 16 + n % 16 = n := by omega
    exact congrArg some hvalue
  show scanPieces (some '\\' :: some 'u' :: some '0' :: some '0' :: _ :: _ :: s) = _
  rw [scanPieces, hhex]
  cases scanPieces s <;> rfl

theorem scanPieces_escape (c : Char) (s : List Symbol) :
    scanPieces ((Doc.escape c).map some ++ s) =
      (scanPieces s).map fun r => (pieceOf c :: r.1, r.2) := by
  -- a short escape is read as its character
  have hshort {e : Char} (he : e ≠ 'u') (hread : shortEscape? e = some c)
      (hpiece : pieceOf c = .raw (some c)) :
      scanPieces (['\\', e].map some ++ s) =
        (scanPieces s).map fun r => (pieceOf c :: r.1, r.2) := by
    show scanPieces (some '\\' :: some e :: s) = _
    rw [scanPieces, hread, hpiece]
    · cases scanPieces s <;> rfl
    · exact fun _ _ _ _ _ _ => he
  unfold Doc.escape
  split_ifs with h₁ h₂ h₃ h₄ h₅ h₆ h₇ h₈
  iterate 7
    subst c
    exact hshort (by decide) rfl rfl
  · have hpiece : pieceOf c = .unit c.toNat := if_pos ⟨h₈, by simp [h₃, h₄, h₅, h₆, h₇]⟩
    rw [hpiece]
    exact scanPieces_unit h₈ s
  · have hpiece : pieceOf c = .raw (some c) := if_neg fun h => h₈ h.1
    rw [hpiece]
    exact scanPieces_plain h₁ h₂ (Nat.not_lt.mp h₈) s

theorem scanPieces_escaped (cs : List Char) (s : List Symbol) :
    scanPieces ((cs.flatMap Doc.escape ++ ['"']).map some ++ s) = some (cs.map pieceOf, s) := by
  induction cs with
  | nil => rfl
  | cons c cs ih =>
    rw [List.flatMap_cons, List.append_assoc, List.map_append, List.append_assoc,
      scanPieces_escape, ih]
    rfl

theorem joinPieces_unit {n : Nat} (hn : n < 0x20) (ps : List Piece) :
    joinPieces (.unit n :: ps) = (joinPieces ps).map (Char.ofNat n :: ·) := by
  have hplain : ¬ (0xD800 ≤ n ∧ n < 0xE000) := by omega
  cases ps with
  | nil => simp only [joinPieces, if_neg hplain]
  | cons p ps =>
    cases p with
    | raw s =>
      rw [joinPieces, if_neg hplain]
      nofun
    | unit m => rw [joinPieces, if_neg (by omega), if_neg hplain]

theorem joinPieces_pieceOf (cs : List Char) : joinPieces (cs.map pieceOf) = some cs := by
  induction cs with
  | nil => rfl
  | cons c cs ih =>
    rw [List.map_cons]
    by_cases hunit : c.toNat < 0x20 ∧ c ∉ ['\x08', '\x0c', '\n', '\r', '\t']
    · have hpiece : pieceOf c = .unit c.toNat := if_pos hunit
      rw [hpiece, joinPieces_unit hunit.1, ih, Char.ofNat_toNat]
      rfl
    · have hpiece : pieceOf c = .raw (some c) := if_neg hunit
      rw [hpiece, joinPieces, ih]
      rfl

/-- A text in quotes is read back, whatever it holds and whatever follows it. -/
theorem scanString_quote (t : String) (s : List Symbol) :
    scanString ((t.toList.flatMap Doc.escape ++ ['"']).map some ++ s) = some (some t, s) := by
  unfold scanString
  rw [scanPieces_escaped]
  show some ((joinPieces (t.toList.map pieceOf)).map String.ofList, s) = _
  rw [joinPieces_pieceOf, Option.map_some, String.ofList_toList]

/-! ## Numbers -/

/-- Symbols that no digits go on with. -/
def NoDigit (s : List Symbol) : Prop :=
  ∀ c, s.head? = some (some c) → Decimal.isDigit c = false

/-- Symbols that no number goes on with. -/
def Apart (s : List Symbol) : Prop :=
  ∀ c, s.head? = some (some c) → Decimal.isDigit c = false ∧ c ∉ ['.', 'e', 'E']

theorem apart_nil : Apart [] := nofun

theorem apart_cons {c : Char} (hdigit : Decimal.isDigit c = false) (hc : c ∉ ['.', 'e', 'E'])
    (s : List Symbol) : Apart (some c :: s) := by
  rintro c' ⟨⟩
  exact ⟨hdigit, hc⟩

theorem scanDigits_append {ds : List Char} (hds : ∀ c ∈ ds, Decimal.isDigit c = true)
    {s : List Symbol} (hs : NoDigit s) : scanDigits (ds.map some ++ s) = (ds, s) := by
  induction ds with
  | nil =>
    cases s with
    | nil => rfl
    | cons x s =>
      cases x with
      | none => rfl
      | some c =>
        have hc : Decimal.isDigit c = false := hs c rfl
        show scanDigits (some c :: s) = _
        rw [scanDigits, hc]
        rfl
  | cons c ds ih =>
    have hc : Decimal.isDigit c = true := hds c List.mem_cons_self
    have hrest := ih fun d hd => hds d (List.mem_cons_of_mem _ hd)
    show scanDigits (some c :: (ds.map some ++ s)) = _
    rw [scanDigits, hc, hrest]
    rfl

namespace Numeral

def fractionChars (n : Numeral) : List Char :=
  if n.fraction.isEmpty then [] else '.' :: n.fraction

def exponentChars (n : Numeral) : List Char :=
  match n.exponent with
  | none => []
  | some (s, ds) => 'e' :: signChars s ++ ds

theorem chars_eq (n : Numeral) :
    n.chars =
      (if n.negative then ['-'] else []) ++ (n.whole ++ (n.fractionChars ++ n.exponentChars)) := by
  show (if n.negative then ['-'] else []) ++ n.whole ++ n.fractionChars ++ n.exponentChars = _
  rw [List.append_assoc, List.append_assoc]

end Numeral

theorem scanSign_append (sign : Sign) {ds : List Char} (hne : ds ≠ [])
    (hds : ∀ c ∈ ds, Decimal.isDigit c = true) (s : List Symbol) :
    scanSign ((Numeral.signChars sign ++ ds).map some ++ s) = (sign, ds.map some ++ s) := by
  cases sign with
  | plus => rfl
  | minus => rfl
  | bare =>
    obtain ⟨c, cs, rfl⟩ := List.exists_cons_of_ne_nil hne
    have hc : Decimal.isDigit c = true := hds c List.mem_cons_self
    show scanSign (some c :: _) = _
    unfold scanSign
    split
    · rename_i heq
      cases heq
      exact absurd hc (by decide)
    · rename_i heq
      cases heq
      exact absurd hc (by decide)
    · rfl

theorem head_exponentChars (n : Numeral) {s : List Symbol} (hs : Apart s) {c : Char}
    (hc : (n.exponentChars.map some ++ s).head? = some (some c)) :
    Decimal.isDigit c = false ∧ c ≠ '.' := by
  unfold Numeral.exponentChars at hc
  cases hexponent : n.exponent with
  | none =>
    rw [hexponent] at hc
    obtain ⟨hdigit, hmem⟩ := hs c hc
    exact ⟨hdigit, fun h => hmem (h ▸ List.mem_cons_self)⟩
  | some e =>
    rw [hexponent] at hc
    cases hc
    decide

theorem noDigit_fractionChars (n : Numeral) {s : List Symbol} (hs : Apart s) :
    NoDigit ((n.fractionChars ++ n.exponentChars).map some ++ s) := by
  rw [List.map_append, List.append_assoc]
  unfold Numeral.fractionChars
  split
  · exact fun c hc => (head_exponentChars n hs hc).1
  · rintro c ⟨⟩
    decide

section
variable {n : Numeral} (hn : n.Spelled) {s : List Symbol}
include hn

theorem scanExponent_chars (hs : Apart s) :
    scanExponent (n.exponentChars.map some ++ s) = some (n.exponent, s) := by
  unfold Numeral.exponentChars
  cases hexponent : n.exponent with
  | none =>
    show scanExponent s = _
    unfold scanExponent
    split
    · exact absurd (hs _ rfl).2 (by decide)
    · exact absurd (hs _ rfl).2 (by decide)
    · rfl
  | some e =>
    obtain ⟨sign, ds⟩ := e
    have hne : ds ≠ [] := hn.exponent_ne_nil _ hexponent
    have hds : ∀ c ∈ ds, Decimal.isDigit c = true := hn.exponent _ hexponent
    have hempty : ds.isEmpty = false := List.isEmpty_eq_false_iff.mpr hne
    show scanExponent (some 'e' :: ((Numeral.signChars sign ++ ds).map some ++ s)) = _
    unfold scanExponent
    simp only
    rw [scanSign_append sign hne hds]
    simp only
    rw [scanDigits_append hds fun c hc => (hs c hc).1]
    simp only [hempty]
    rfl

theorem scanFraction_chars (hs : Apart s) :
    scanFraction ((n.fractionChars ++ n.exponentChars).map some ++ s) =
      some (n.fraction, n.exponentChars.map some ++ s) := by
  rw [List.map_append, List.append_assoc]
  have hdigit : NoDigit (n.exponentChars.map some ++ s) := fun c hc =>
    (head_exponentChars n hs hc).1
  unfold Numeral.fractionChars
  cases hempty : n.fraction.isEmpty with
  | true =>
    have hnil : n.fraction = [] := List.isEmpty_iff.mp hempty
    rw [if_pos rfl, hnil]
    show scanFraction (n.exponentChars.map some ++ s) = _
    unfold scanFraction
    split
    · rename_i heq
      exact absurd rfl (head_exponentChars n hs (heq ▸ rfl)).2
    · rfl
  | false =>
    rw [if_neg (by decide)]
    show scanFraction (some '.' :: (n.fraction.map some ++ (n.exponentChars.map some ++ s))) = _
    unfold scanFraction
    simp only
    rw [scanDigits_append hn.fraction hdigit]
    simp only [hempty]
    rfl

/-- A numeral is read back after its sign when what follows it does not go on with it. -/
theorem scanNumber_chars (hs : Apart s) :
    scanNumber n.negative ((n.whole ++ (n.fractionChars ++ n.exponentChars)).map some ++ s) =
      some (n, s) := by
  have hempty : n.whole.isEmpty = false := List.isEmpty_eq_false_iff.mpr hn.whole_ne_nil
  have hstart : ¬ (n.whole.isEmpty = true ∨ n.whole.head? = some '0' ∧ 1 < n.whole.length) := by
    rw [hempty]
    exact fun h => h.elim Bool.false_ne_true hn.leading
  rw [List.map_append, List.append_assoc]
  unfold scanNumber
  rw [scanDigits_append hn.whole (noDigit_fractionChars n hs)]
  simp only
  rw [if_neg hstart, scanFraction_chars hn hs, Option.bind_eq_bind, Option.bind_some]
  simp only
  rw [scanExponent_chars hn hs]
  rfl

end

/-! ## Documents -/

/-- A document has a written form: its numerals are spelled as JSON allows it, and its strings and
keys are texts. -/
inductive Doc.Written : Doc → Prop
  | null : Written .null
  | bool (b : Bool) : Written (.bool b)
  | number {n : Numeral} (h : n.Spelled) : Written (.number n)
  | string (t : String) : Written (.string (some t))
  | array {items : List Doc} (h : ∀ d ∈ items, Written d) : Written (.array items)
  | object {ms : List (Option String × Doc)} (hkeys : ∀ m ∈ ms, m.1.isSome)
    (h : ∀ m ∈ ms, Written m.2) : Written (.object ms)

theorem skipSpace_cons {c : Char} (h : isSpace (some c) = false) (s : List Symbol) :
    skipSpace (some c :: s) = some c :: s := by
  unfold skipSpace
  rw [List.dropWhile_cons_of_neg (by rw [h]; decide)]

theorem Numeral.Spelled.head {n : Numeral} (hn : n.Spelled) :
    ∃ c cs, n.chars = c :: cs ∧ (c = '-' ∨ Decimal.isDigit c = true) := by
  rw [Numeral.chars_eq]
  cases n.negative with
  | true => exact ⟨'-', _, rfl, Or.inl rfl⟩
  | false =>
    obtain ⟨c, cs, hwhole⟩ := List.exists_cons_of_ne_nil hn.whole_ne_nil
    have hc : c ∈ n.whole := hwhole ▸ List.mem_cons_self
    refine ⟨c, cs ++ (n.fractionChars ++ n.exponentChars), ?_, Or.inr (hn.whole c hc)⟩
    rw [hwhole]
    rfl

theorem isSpace_eq_false_of_isDigit {c : Char} (h : Decimal.isDigit c = true) :
    isSpace (some c) = false := by
  unfold isSpace
  split
  case h_5 => rfl
  all_goals
    rename_i heq
    cases heq
    exact absurd h (by decide)

theorem Doc.Written.head {d : Doc} (hd : d.Written) :
    ∃ c cs, d.chars = c :: cs ∧ isSpace (some c) = false ∧ c ≠ ']' := by
  cases hd with
  | null => exact ⟨'n', _, by rw [chars], rfl, by decide⟩
  | bool b =>
    cases b with
    | true => exact ⟨'t', _, by rw [chars], rfl, by decide⟩
    | false => exact ⟨'f', _, by rw [chars], rfl, by decide⟩
  | number h =>
    obtain ⟨c, cs, hchars, hc⟩ := h.head
    refine ⟨c, cs, by rw [chars, hchars], ?_⟩
    rcases hc with rfl | hc
    · exact ⟨rfl, by decide⟩
    · refine ⟨isSpace_eq_false_of_isDigit hc, ?_⟩
      rintro rfl
      exact absurd hc (by decide)
  | string t => exact ⟨'"', t.toList.flatMap escape ++ ['"'], by rw [chars]; rfl, rfl, by decide⟩
  | array h => exact ⟨'[', _, by rw [chars], rfl, by decide⟩
  | object hkeys h => exact ⟨'\x7b', _, by rw [chars], rfl, by decide⟩

theorem scanDoc_of_isDigit {c : Char} (hc : Decimal.isDigit c = true) (fuel : Nat)
    (s : List Symbol) : scanDoc (fuel + 1) (some c :: s) = numberDoc false (some c :: s) := by
  rw [scanDoc, skipSpace_cons (isSpace_eq_false_of_isDigit hc)]
  -- no other case of a document begins with a digit
  split
  case h_8 heq =>
    cases heq
    rw [if_pos hc]
  case h_9 hne => exact absurd rfl (hne c s)
  all_goals
    rename_i heq
    cases heq
    exact absurd hc (by decide)

theorem scanDoc_number {n : Numeral} (hn : n.Spelled) (fuel : Nat) {s : List Symbol}
    (hs : Apart s) : scanDoc (fuel + 1) (n.chars.map some ++ s) = (.number n, s) := by
  have hnumber := scanNumber_chars hn hs
  rw [Numeral.chars_eq]
  cases hsign : n.negative with
  | true =>
    rw [hsign] at hnumber
    rw [if_pos rfl, List.singleton_append, List.map_cons, List.cons_append, scanDoc,
      skipSpace_cons rfl]
    show numberDoc true _ = _
    unfold numberDoc
    rw [hnumber]
    rfl
  | false =>
    rw [hsign] at hnumber
    rw [if_neg (by decide), List.nil_append]
    obtain ⟨c, cs, hwhole⟩ := List.exists_cons_of_ne_nil hn.whole_ne_nil
    have hc : Decimal.isDigit c = true := hn.whole c (hwhole ▸ List.mem_cons_self)
    rw [hwhole, List.cons_append, List.map_cons, List.cons_append] at hnumber ⊢
    rw [scanDoc_of_isDigit hc]
    unfold numberDoc
    rw [hnumber]
    rfl

/-! ### Containers -/

/-- A document is read from its characters, with any fuel that is more than they are. -/
def Reads (d : Doc) : Prop :=
  ∀ fuel s, d.chars.length ≤ fuel → Apart s → scanDoc (fuel + 1) (d.chars.map some ++ s) = (d, s)

section
variable {fuel : Nat} {d : Doc} {s rest : List Symbol}

theorem scanDoc_array {c : Char} {items : List Doc} (hspace : isSpace (some c) = false)
    (hc : c ≠ ']') (h : scanItems fuel (some c :: s) = (items, rest)) :
    scanDoc (fuel + 1) (some '[' :: some c :: s) = (.array items, rest) := by
  rw [scanDoc, skipSpace_cons rfl]
  simp only [skipSpace_cons hspace]
  split
  · rename_i heq
    cases heq
    exact absurd rfl hc
  · rw [h]

theorem scanDoc_object {ms : List (Option String × Doc)}
    (h : scanMembers fuel (some '"' :: s) = (ms, rest)) :
    scanDoc (fuel + 1) (some '\x7b' :: some '"' :: s) = (.object ms, rest) := by
  rw [scanDoc, skipSpace_cons rfl]
  simp only [skipSpace_cons (c := '"') rfl]
  show (Doc.object (scanMembers fuel _).1, (scanMembers fuel _).2) = _
  rw [h]

theorem scanItems_further (h : scanDoc fuel s = (d, some ',' :: rest)) :
    scanItems (fuel + 1) s = (d :: (scanItems fuel rest).1, (scanItems fuel rest).2) := by
  rw [scanItems, h]
  rfl

theorem scanItems_closed (h : scanDoc fuel s = (d, some ']' :: rest)) :
    scanItems (fuel + 1) s = ([d], rest) := by
  rw [scanItems, h]
  rfl

theorem scanItems_chars {ds : List Doc} (hd : Reads d) (hds : ∀ d ∈ ds, Reads d)
    (hfuel : d.chars.length + (Doc.itemsChars false ds).length ≤ fuel) :
    scanItems (fuel + 1) (d.chars.map some ++ ((Doc.itemsChars false ds).map some ++ s)) =
      (d :: ds, s) := by
  induction ds generalizing d fuel with
  | nil =>
    rw [Doc.itemsChars] at hfuel ⊢
    rw [List.length_singleton] at hfuel
    obtain ⟨fuel, rfl⟩ := Nat.exists_eq_add_one_of_ne_zero (by omega : fuel ≠ 0)
    exact scanItems_closed (hd fuel _ (by omega) (apart_cons (by decide) (by decide) s))
  | cons e ds ih =>
    have hchars : Doc.itemsChars false (e :: ds) = ',' :: (e.chars ++ Doc.itemsChars false ds) := by
      rw [Doc.itemsChars]
      rfl
    rw [hchars] at hfuel ⊢
    rw [List.length_cons, List.length_append] at hfuel
    obtain ⟨fuel, rfl⟩ := Nat.exists_eq_add_one_of_ne_zero (by omega : fuel ≠ 0)
    have hrest := ih (hds e List.mem_cons_self) (fun d hd => hds d (List.mem_cons_of_mem _ hd))
      (by omega : _ ≤ fuel)
    rw [List.map_cons, List.cons_append, List.map_append, List.append_assoc,
      scanItems_further (hd fuel _ (by omega) (apart_cons (by decide) (by decide) _)), hrest]

theorem scanMembers_further (key : String) (h : scanDoc fuel s = (d, some ',' :: rest)) :
    scanMembers (fuel + 1) ((Doc.quote key).map some ++ some ':' :: s) =
      ((some key, d) :: (scanMembers fuel rest).1, (scanMembers fuel rest).2) := by
  rw [Doc.quote, List.map_cons, List.cons_append, scanMembers, skipSpace_cons rfl]
  simp only [scanString_quote, skipSpace_cons (c := ':') rfl, h]
  rfl

theorem scanMembers_closed (key : String) (h : scanDoc fuel s = (d, some '\x7d' :: rest)) :
    scanMembers (fuel + 1) ((Doc.quote key).map some ++ some ':' :: s) =
      ([(some key, d)], rest) := by
  rw [Doc.quote, List.map_cons, List.cons_append, scanMembers, skipSpace_cons rfl]
  simp only [scanString_quote, skipSpace_cons (c := ':') rfl, h]
  rfl

theorem scanMembers_chars (key : String) {ms : List (Option String × Doc)} (hd : Reads d)
    (hkeys : ∀ m ∈ ms, m.1.isSome) (hms : ∀ m ∈ ms, Reads m.2)
    (hfuel : d.chars.length + (Doc.membersChars false ms).length ≤ fuel) :
    scanMembers (fuel + 1) ((Doc.quote key).map some ++
        some ':' :: (d.chars.map some ++ ((Doc.membersChars false ms).map some ++ s))) =
      ((some key, d) :: ms, s) := by
  induction ms generalizing key d fuel with
  | nil =>
    rw [Doc.membersChars] at hfuel ⊢
    rw [List.length_singleton] at hfuel
    obtain ⟨fuel, rfl⟩ := Nat.exists_eq_add_one_of_ne_zero (by omega : fuel ≠ 0)
    exact scanMembers_closed key (hd fuel _ (by omega) (apart_cons (by decide) (by decide) s))
  | cons m ms ih =>
    obtain ⟨k, e⟩ := m
    obtain ⟨k, rfl⟩ := Option.isSome_iff_exists.mp (hkeys (k, e) List.mem_cons_self)
    have he : Reads e := hms (some k, e) List.mem_cons_self
    have hchars : Doc.membersChars false ((some k, e) :: ms) =
        ',' :: (Doc.quote k ++ ':' :: (e.chars ++ Doc.membersChars false ms)) := by
      rw [Doc.membersChars, List.append_assoc, List.append_assoc]
      rfl
    rw [hchars] at hfuel ⊢
    simp only [List.length_cons, List.length_append] at hfuel
    obtain ⟨fuel, rfl⟩ := Nat.exists_eq_add_one_of_ne_zero (by omega : fuel ≠ 0)
    have hrest := ih k he (fun m hm => hkeys m (List.mem_cons_of_mem _ hm))
      (fun m hm => hms m (List.mem_cons_of_mem _ hm)) (by omega : _ ≤ fuel)
    simp only [List.map_cons, List.map_append, List.cons_append, List.append_assoc]
    rw [scanMembers_further key
      (hd fuel _ (by omega) (apart_cons (by decide) (by decide) _)), hrest]

end

/-- The characters of a written document are read as this document, up to their end. -/
theorem Doc.Written.reads {d : Doc} (hd : d.Written) : Reads d := by
  induction hd with
  | null =>
    intro fuel s hfuel hs
    rw [chars]
    rfl
  | bool b =>
    intro fuel s hfuel hs
    cases b with
    | true =>
      rw [chars]
      rfl
    | false =>
      rw [chars]
      rfl
  | number h =>
    intro fuel s hfuel hs
    rw [chars]
    exact scanDoc_number h fuel hs
  | string t =>
    intro fuel s hfuel hs
    rw [chars]
    show scanDoc (fuel + 1) (some '"' :: ((t.toList.flatMap escape ++ ['"']).map some ++ s)) = _
    rw [scanDoc, skipSpace_cons rfl]
    simp only [scanString_quote]
    rfl
  | @array items h ih =>
    intro fuel s hfuel hs
    rw [chars] at hfuel ⊢
    obtain ⟨fuel, rfl⟩ := Nat.exists_eq_add_one_of_ne_zero (Nat.ne_zero_of_lt hfuel)
    cases items with
    | nil => rfl
    | cons d ds =>
      -- the first item shows that the array is not empty, since it begins with no bracket
      obtain ⟨c, cs, hchars, hspace, hc⟩ := (h d List.mem_cons_self).head
      rw [itemsChars, if_pos rfl, List.nil_append] at hfuel ⊢
      rw [List.length_cons, List.length_append] at hfuel
      have hitems := scanItems_chars (s := s) (ih d List.mem_cons_self)
        (fun e he => ih e (List.mem_cons_of_mem _ he)) (by omega : _ ≤ fuel)
      rw [List.map_cons, List.cons_append, List.map_append, List.append_assoc]
      rw [hchars, List.map_cons, List.cons_append] at hitems ⊢
      exact scanDoc_array hspace hc hitems
  | @object ms hkeys h ih =>
    intro fuel s hfuel hs
    rw [chars] at hfuel ⊢
    obtain ⟨fuel, rfl⟩ := Nat.exists_eq_add_one_of_ne_zero (Nat.ne_zero_of_lt hfuel)
    cases ms with
    | nil => rfl
    | cons m ms =>
      obtain ⟨k, d⟩ := m
      obtain ⟨k, rfl⟩ := Option.isSome_iff_exists.mp (hkeys (k, d) List.mem_cons_self)
      have hchars : membersChars true ((some k, d) :: ms) =
          quote k ++ ':' :: (d.chars ++ membersChars false ms) := by
        rw [membersChars, List.append_assoc, List.append_assoc]
        rfl
      rw [hchars] at hfuel ⊢
      simp only [List.length_cons, List.length_append] at hfuel
      have hd : Reads d := ih (some k, d) List.mem_cons_self
      have hms := scanMembers_chars (s := s) k hd
        (fun m hm => hkeys m (List.mem_cons_of_mem _ hm))
        (fun m hm => ih m (List.mem_cons_of_mem _ hm)) (by omega : _ ≤ fuel)
      simp only [List.map_cons, List.map_append, List.cons_append, List.append_assoc]
      rw [quote, List.map_cons, List.cons_append] at hms ⊢
      exact scanDoc_object hms

theorem Doc.scan_render {d : Doc} (hd : d.Written) :
    Doc.scan (Text.Utf8.symbols d.render) = (d, []) := by
  have hsymbols : Text.Utf8.symbols d.render = d.chars.map some ++ [] := by
    rw [List.append_nil]
    exact congrArg (List.map some) String.toList_ofList
  unfold Doc.scan
  rw [hsymbols]
  refine hd.reads _ [] ?_ apart_nil
  rw [List.append_nil, List.length_map]
  omega

end DeviceHub.Json
