import Mathlib
import DeviceHub.Text.Utf8

/-!
# Texts as octets and back

* `Utf8.run_more`, `run_last`   an octet inside a sequence;
* `Utf8.onLead_two`, `onLead_three`, `onLead_four`   leading octets, by the length of their sequences;
* `Utf8.run_encodeChar`         the sequence of a character yields the character;
* `Utf8.decode_encode`          the octets of a text are read as its characters;
* `Utf8.text?_encode`           so the text is read back;
* `Utf8.encode_eq`              they are those in which a `String` is held.
-/

namespace DeviceHub.Text.Utf8

/-! ## Octets inside a sequence -/

section
variable {n : Nat} (hn : n < 64) {low high : UInt8} (hlow : low.toNat ≤ n + 128)
  (hhigh : n + 128 ≤ high.toNat)

include hn in
theorem toNat_tail : (UInt8.ofNat (n + 128)).toNat = n + 128 :=
  UInt8.toNat_ofNat_of_lt' (show n + 128 < 256 by omega)

include hn hlow hhigh

theorem tail_within : low ≤ UInt8.ofNat (n + 128) ∧ UInt8.ofNat (n + 128) ≤ high := by
  rw [UInt8.le_iff_toNat_le, UInt8.le_iff_toNat_le, toNat_tail hn]
  exact ⟨hlow, hhigh⟩

/-- an octet inside a sequence that is not the last one -/
theorem run_more (missing value : Nat) (rest : List UInt8) :
    run (.more (missing + 2) value low high) (UInt8.ofNat (n + 128) :: rest) =
      run (.more (missing + 1) (value * 64 + n) 0x80 0xBF) rest := by
  have hstep : step (.more (missing + 2) value low high) (UInt8.ofNat (n + 128)) =
      (.more (missing + 1) (value * 64 + n) 0x80 0xBF, []) := by
    unfold step
    simp only [if_pos (tail_within hn hlow hhigh), toNat_tail hn, Nat.add_sub_cancel]
  rw [run, hstep]
  rfl

/-- the last octet of a sequence -/
theorem run_last (value : Nat) (rest : List UInt8) :
    run (.more 1 value low high) (UInt8.ofNat (n + 128) :: rest) =
      some (Char.ofNat (value * 64 + n)) :: run .lead rest := by
  have hstep : step (.more 1 value low high) (UInt8.ofNat (n + 128)) =
      (.lead, [some (Char.ofNat (value * 64 + n))]) := by
    unfold step
    simp only [if_pos (tail_within hn hlow hhigh), toNat_tail hn, Nat.add_sub_cancel]
  rw [run, hstep]
  rfl

end

/-! ## Leading octets -/

theorem onLead_one {v : Nat} (hv : v < 0x80) :
    onLead (UInt8.ofNat v) = (.lead, [some (Char.ofNat v)]) := by
  have htoNat : (UInt8.ofNat v).toNat = v :=
    UInt8.toNat_ofNat_of_lt' (show v < 256 by omega)
  unfold onLead
  have hlt : UInt8.ofNat v < 0x80 := by
    rw [UInt8.lt_iff_toNat_lt, htoNat]
    exact hv
  simp only [if_pos hlt, htoNat]

theorem onLead_two {k : Nat} (hlow : 2 ≤ k) (hhigh : k < 32) :
    onLead (UInt8.ofNat (k + 192)) = (.more 1 k 0x80 0xBF, []) := by
  interval_cases k <;> rfl

theorem onLead_three {k : Nat} (hk : k < 16) : onLead (UInt8.ofNat (k + 224)) =
    (.more 2 k (if k = 0 then 0xA0 else 0x80) (if k = 13 then 0x9F else 0xBF), []) := by
  interval_cases k <;> rfl

theorem onLead_four {k : Nat} (hk : k ≤ 4) : onLead (UInt8.ofNat (k + 240)) =
    (.more 3 k (if k = 0 then 0x90 else 0x80) (if k = 4 then 0x8F else 0xBF), []) := by
  interval_cases k <;> rfl

theorem run_lead {b : UInt8} {w : Wait} {out : List Symbol} (h : onLead b = (w, out))
    (rest : List UInt8) : run .lead (b :: rest) = out ++ run w rest := by
  have hstep : step .lead b = (w, out) := h
  rw [run, hstep]

/-! ## Characters -/

/-- The sequence of a character yields the character. -/
theorem run_encodeChar (c : Char) (rest : List UInt8) :
    run .lead (String.utf8EncodeChar c ++ rest) = some c :: run .lead rest := by
  have hvalid : c.val.toNat < 0xD800 ∨ 0xDFFF < c.val.toNat ∧ c.val.toNat < 0x110000 := c.valid
  have hc : Char.ofNat c.val.toNat = c := Char.ofNat_toNat c
  unfold String.utf8EncodeChar
  simp only
  generalize c.val.toNat = v at hvalid hc ⊢
  split
  · rename_i h₁
    rw [List.singleton_append, run_lead (onLead_one (by omega)), hc]
    rfl
  split
  · rename_i h₁ h₂
    have hlead : v / 64 % 32 = v / 64 := by omega
    have hvalue : v / 64 * 64 + v % 64 = v := by omega
    rw [hlead, List.cons_append, List.singleton_append, run_lead (onLead_two (by omega) (by omega)),
      List.nil_append, run_last (by omega) (by simp) (by simp; omega), hvalue, hc]
  split
  · rename_i h₁ h₂ h₃
    -- the range of the second octet leaves out overlong forms and surrogates
    have hlead : v / 4096 % 16 = v / 4096 := by omega
    have hlow : (if v / 4096 = 0 then (0xA0 : UInt8) else 0x80).toNat ≤ v / 64 % 64 + 128 := by
      split <;> simp
      omega
    have hhigh : v / 64 % 64 + 128 ≤ (if v / 4096 = 13 then (0x9F : UInt8) else 0xBF).toNat := by
      split <;> simp <;> omega
    have hvalue : (v / 4096 * 64 + v / 64 % 64) * 64 + v % 64 = v := by omega
    rw [hlead, List.cons_append, List.cons_append, List.singleton_append,
      run_lead (onLead_three (by omega)), List.nil_append, run_more (by omega) hlow hhigh 0,
      run_last (by omega) (by simp) (by simp; omega), hvalue, hc]
  · rename_i h₁ h₂ h₃
    -- the range of the second octet leaves out overlong forms and what is no code point
    have hlead : v / 262144 % 8 = v / 262144 := by omega
    have hlow : (if v / 262144 = 0 then (0x90 : UInt8) else 0x80).toNat ≤ v / 4096 % 64 + 128 := by
      split <;> simp
      omega
    have hhigh : v / 4096 % 64 + 128 ≤ (if v / 262144 = 4 then (0x8F : UInt8) else 0xBF).toNat := by
      split <;> simp <;> omega
    have hvalue : ((v / 262144 * 64 + v / 4096 % 64) * 64 + v / 64 % 64) * 64 + v % 64 = v := by
      omega
    rw [hlead, List.cons_append, List.cons_append, List.cons_append, List.singleton_append,
      run_lead (onLead_four (by omega)), List.nil_append, run_more (by omega) hlow hhigh 1,
      run_more (by omega) (by simp) (by simp; omega) 0,
      run_last (by omega) (by simp) (by simp; omega), hvalue, hc]

theorem decode_encode (s : String) : decode (encode s) = symbols s := by
  have hrun (cs : List Char) : run .lead (cs.flatMap String.utf8EncodeChar) = cs.map some := by
    induction cs with
    | nil => rfl
    | cons c cs ih => rw [List.flatMap_cons, run_encodeChar, ih, List.map_cons]
  exact hrun s.toList

theorem text?_encode (s : String) : text? (encode s) = some s := by
  have hall (cs : List Char) : (cs.map some).mapM id = some cs := by
    induction cs with
    | nil => rfl
    | cons c cs ih =>
      rw [List.map_cons, List.mapM_cons, ih]
      rfl
  unfold text? textOf?
  rw [decode_encode, symbols, hall, Option.map_some, String.ofList_toList]

/-- The octets of a text are those in which it is held, so no character has to be read for them. -/
theorem encode_eq (s : String) : encode s = s.toByteArray.data.toList := by
  conv_rhs => rw [← String.ofList_toList (s := s), String.toByteArray_ofList]
  unfold encode List.utf8Encode
  rw [List.data_toByteArray]

end DeviceHub.Text.Utf8
