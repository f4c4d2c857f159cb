import DeviceHub.Proofs.Decimal.Digits
import DeviceHub.Proofs.Toml.Text
import DeviceHub.Toml.Document

/-!
# TOML values are read back

* `Item`               a text, a number or a truth value, as it is written and as it is read;
* `scanValue_item`     what is written is read back in front of the end of the line.
-/

namespace DeviceHub.Toml

/-- a value that is written on a line -/
inductive Item
  | text (s : String)
  | number (n : Nat)
  | flag (b : Bool)

namespace Item

def chars : Item → List Char
  | .text s => renderText s
  | .number n => Decimal.digits n
  | .flag b => if b then "true".toList else "false".toList

def value : Item → Value
  | .text s => .text s
  | .number n => .int n
  | .flag b => .bool b

/-- Numbers have at most 63 bits. -/
def Fits : Item → Prop
  | .number n => n < 0x8000000000000000
  | _ => True

end Item

/-! ## Words -/

theorem span_append {p : Char → Bool} {cs rest : List Char} (hcs : ∀ c ∈ cs, p c = true)
    (hrest : ∀ c, rest.head? = some c → p c = false) : (cs ++ rest).span p = (cs, rest) := by
  have htake : rest.takeWhile p = [] := by
    cases rest with
    | nil => rfl
    | cons c rest => rw [List.takeWhile_cons_of_neg (by rw [hrest c rfl]; decide)]
  have hdrop : rest.dropWhile p = rest := by
    cases rest with
    | nil => rfl
    | cons c rest => rw [List.dropWhile_cons_of_neg (by rw [hrest c rfl]; decide)]
  rw [List.span_eq_takeWhile_dropWhile, List.takeWhile_append_of_pos hcs,
    List.dropWhile_append_of_pos hcs, htake, hdrop, List.append_nil]

section
variable {ds : List Char} (hds : ∀ c ∈ ds, Decimal.isDigit c = true)
include hds

theorem not_mem_of_not_isDigit {c : Char} (hc : Decimal.isDigit c = false) : c ∉ ds := by
  intro hmem
  rw [hds c hmem] at hc
  cases hc

theorem isDate_digits : isDate ds = false := by
  unfold isDate
  split
  · exact absurd (by simp) (not_mem_of_not_isDigit hds (c := '-') rfl)
  · rfl

theorem afterTime_digits : afterTime ds = none := by
  unfold afterTime
  split
  · exact absurd (by simp) (not_mem_of_not_isDigit hds (c := ':') rfl)
  · rfl

theorem ungroup_digits (hne : ds ≠ []) : ungroup Decimal.isDigit ds = some ds := by
  induction ds with
  | nil => exact absurd rfl hne
  | cons c ds ih =>
    obtain ⟨hc, hds⟩ := List.forall_mem_cons.mp hds
    cases ds with
    | nil => rw [ungroup, if_pos hc]
    | cons d ds =>
      rw [ungroup, if_pos hc, ih hds (List.cons_ne_nil _ _)]
      · rfl
      · exact fun h => absurd h (List.cons_ne_nil _ _)
      · rintro rest h
        exact not_mem_of_not_isDigit hds (c := '_') rfl ((List.cons.inj h).1 ▸ List.mem_cons_self)

end

theorem int?_digits {n : Nat} (hn : n < 0x8000000000000000) : int? (Decimal.digits n) = some n := by
  have hds (c : Char) (hc : c ∈ Decimal.digits n) : Decimal.isDigit c = true :=
    Decimal.isDigit_of_mem_digits hc
  have hsign : splitSign (Decimal.digits n) = (false, Decimal.digits n) := by
    unfold splitSign
    split
    · rename_i heq
      exact absurd (heq ▸ List.mem_cons_self) (not_mem_of_not_isDigit hds (c := '-') rfl)
    · rename_i heq
      exact absurd (heq ▸ List.mem_cons_self) (not_mem_of_not_isDigit hds (c := '+') rfl)
    · rfl
  have hzero : ¬ ((Decimal.digits n).head? = some '0' ∧ 1 < (Decimal.digits n).length) := by
    rintro ⟨hhead, hlength⟩
    rw [Decimal.eq_zero_of_head?_digits hhead, Decimal.digits_of_lt (by omega)] at hlength
    exact absurd hlength (lt_irrefl 1)
  have hdecimal : decimal? (Decimal.digits n) = some (Decimal.digits n) := by
    unfold decimal?
    rw [ungroup_digits hds (Decimal.digits_ne_nil n), Option.bind_eq_bind, Option.bind_some,
      if_neg hzero]
  unfold int?
  split
  · rename_i heq
    exact absurd (heq ▸ by simp) (not_mem_of_not_isDigit hds (c := 'x') rfl)
  · rename_i heq
    exact absurd (heq ▸ by simp) (not_mem_of_not_isDigit hds (c := 'o') rfl)
  · rename_i heq
    exact absurd (heq ▸ by simp) (not_mem_of_not_isDigit hds (c := 'b') rfl)
  · rw [hsign]
    simp only [hdecimal, Option.bind_eq_bind, Option.bind_some, Decimal.value_digits]
    rw [if_neg Bool.false_ne_true, if_pos hn]
    rfl

theorem scalar?_digits {n : Nat} (hn : n < 0x8000000000000000) :
    scalar? (Decimal.digits n) = some (.int n) := by
  have hds (c : Char) (hc : c ∈ Decimal.digits n) : Decimal.isDigit c = true :=
    Decimal.isDigit_of_mem_digits hc
  have htrue : Decimal.digits n ≠ ['t', 'r', 'u', 'e'] := fun h =>
    not_mem_of_not_isDigit hds (c := 't') rfl (h ▸ List.mem_cons_self)
  have hfalse : Decimal.digits n ≠ ['f', 'a', 'l', 's', 'e'] := fun h =>
    not_mem_of_not_isDigit hds (c := 'f') rfl (h ▸ List.mem_cons_self)
  have htime : isTime (Decimal.digits n) = false := by
    unfold isTime
    rw [afterTime_digits hds]
    rfl
  have hdateTime : isDateTime (Decimal.digits n) = false := by
    unfold isDateTime
    rw [isDate_digits fun c hc => hds c (List.mem_of_mem_take hc), Bool.false_and]
  unfold scalar?
  rw [if_neg htrue, if_neg hfalse, isDate_digits hds, htime, hdateTime, int?_digits hn]
  rfl

theorem isWordChar_of_isDigit {c : Char} (h : Decimal.isDigit c = true) : isWordChar c = true := by
  have halnum : c.isAlphanum = true := by
    unfold Char.isAlphanum
    rw [show c.isDigit = true from h, Bool.or_true]
  unfold isWordChar
  rw [halnum]
  rfl

theorem scanScalar_word {word : List Char} (hword : ∀ c ∈ word, isWordChar c = true) {v : Value}
    (hv : scalar? word = some v) (rest : List Char) :
    scanScalar (word ++ '\n' :: rest) = some (v, '\n' :: rest) := by
  have hspan : (word ++ '\n' :: rest).span isWordChar = (word, '\n' :: rest) := by
    refine span_append hword ?_
    rintro c ⟨⟩
    rfl
  unfold scanScalar
  rw [hspan]
  simp only [hv, Option.bind_eq_bind, Option.bind_some]
  rfl

/-! ## Values -/

theorem renderText_head (s : String) :
    ∃ cs, renderText s = '"' :: cs ∨ renderText s = '\'' :: cs := by
  unfold renderText
  cases formOf s.toList with
  | basic => exact ⟨_, Or.inl rfl⟩
  | literal => exact ⟨_, Or.inr rfl⟩
  | basicLines => exact ⟨_, Or.inl rfl⟩
  | literalLines => exact ⟨_, Or.inr rfl⟩

theorem scanValue_text (s : String) (fuel room : Nat) (rest : List Char) :
    scanValue (fuel + 1) room (renderText s ++ '\n' :: rest) = some (.text s, '\n' :: rest) := by
  have hread : scanText (renderText s ++ '\n' :: rest) = some (s.toList, '\n' :: rest) :=
    scanText_renderText (by simp) (by simp) s
  obtain ⟨cs, hcs | hcs⟩ := renderText_head s
  · rw [hcs, List.cons_append] at hread ⊢
    rw [scanValue, hread, Option.map_some]
    simp only [String.ofList_toList]
  · rw [hcs, List.cons_append] at hread ⊢
    rw [scanValue, hread, Option.map_some]
    simp only [String.ofList_toList]

theorem scanValue_word {c : Char} (hc : isWordChar c = true) (fuel room : Nat) (cs : List Char) :
    scanValue (fuel + 1) room (c :: cs) = scanScalar (c :: cs) := by
  rw [scanValue]
  all_goals
    rintro rest h
    obtain ⟨rfl, -⟩ := List.cons.inj h
    exact absurd hc (by decide)

/-- A value is read back in front of the end of its line. -/
theorem scanValue_item {i : Item} (hi : i.Fits) (fuel room : Nat) (rest : List Char) :
    scanValue (fuel + 1) room (i.chars ++ '\n' :: rest) = some (i.value, '\n' :: rest) := by
  cases i with
  | text s => exact scanValue_text s fuel room rest
  | number n =>
    have hword (c : Char) (hc : c ∈ Decimal.digits n) : isWordChar c = true :=
      isWordChar_of_isDigit (Decimal.isDigit_of_mem_digits hc)
    have hread := scanScalar_word hword (scalar?_digits hi) rest
    show scanValue (fuel + 1) room (Decimal.digits n ++ _) = _
    obtain ⟨c, cs, hcs⟩ := List.exists_cons_of_ne_nil (Decimal.digits_ne_nil n)
    rw [hcs, List.cons_append] at hread ⊢
    rw [scanValue_word (hword c (hcs ▸ List.mem_cons_self)), hread]
    rfl
  | flag b =>
    have hread (w : List Char) (hw : ∀ c ∈ w, isWordChar c = true) (hv : scalar? w = some (.bool b))
        (hchars : (Item.flag b).chars = w) (hne : w ≠ []) :
        scanValue (fuel + 1) room ((Item.flag b).chars ++ '\n' :: rest) =
          some (.bool b, '\n' :: rest) := by
      obtain ⟨c, cs, rfl⟩ := List.exists_cons_of_ne_nil hne
      rw [hchars, List.cons_append, scanValue_word (hw c List.mem_cons_self)]
      exact scanScalar_word hw hv rest
    cases b with
    | true =>
      exact hread ['t', 'r', 'u', 'e'] (by simp [isWordChar]) rfl (by simp [Item.chars])
        (List.cons_ne_nil _ _)
    | false =>
      exact hread ['f', 'a', 'l', 's', 'e'] (by simp [isWordChar]) rfl (by simp [Item.chars])
        (List.cons_ne_nil _ _)

end DeviceHub.Toml
