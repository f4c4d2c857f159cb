import Mathlib
import DeviceHub.Text.Blank

/-!
# The ends of texts

* `takeWhile_ne`, `takeWhile_ne_append`   what comes before the first of a mark;
* `dropWhile_pad`, `dropWhile_pad_end`   what is dropped from one end of a list, up to what stays;
* `Text.trimChars_pad`        blank characters around a text are trimmed;
* `head?_trimChars`, `getLast?_trimChars`   a trimmed text has no blank character at its ends.
-/

namespace DeviceHub

section
variable {α : Type} [DecidableEq α] {a : α} {xs : List α} (h : a ∉ xs)
include h

theorem takeWhile_ne : xs.takeWhile (· ≠ a) = xs :=
  List.takeWhile_eq_self_iff.mpr fun _ hx => decide_eq_true (ne_of_mem_of_not_mem hx h)

theorem takeWhile_ne_append (rest : List α) : (xs ++ a :: rest).takeWhile (· ≠ a) = xs := by
  rw [List.takeWhile_append_of_pos fun _ hx => decide_eq_true (ne_of_mem_of_not_mem hx h),
    List.takeWhile_cons_of_neg (by simp), List.append_nil]

end

section
variable {α : Type} {p : α → Bool} {xs pad : List α} (hpad : ∀ x ∈ pad, p x = true)
include hpad

theorem dropWhile_pad (h : ∀ x ∈ xs.head?, p x = false) : (pad ++ xs).dropWhile p = xs := by
  rw [List.dropWhile_append_of_pos hpad]
  cases xs with
  | nil => rfl
  | cons x xs =>
    have hx : p x = false := h x rfl
    exact List.dropWhile_cons_of_neg (by rw [hx]; exact Bool.false_ne_true)

theorem dropWhile_pad_end (h : ∀ x ∈ xs.getLast?, p x = false) :
    ((xs ++ pad).reverse.dropWhile p).reverse = xs := by
  have hreverse : ∀ x ∈ pad.reverse, p x = true := fun x hx => hpad x (List.mem_reverse.mp hx)
  rw [List.reverse_append, dropWhile_pad hreverse (by rwa [List.head?_reverse]),
    List.reverse_reverse]

end

theorem head?_dropWhile {α : Type} (p : α → Bool) (xs : List α) :
    ∀ x ∈ (xs.dropWhile p).head?, p x = false := by
  intro x hx
  have h := List.head?_dropWhile_not p xs
  rwa [Option.mem_def.mp hx] at h

namespace Text

section
variable {cs : List Char}

theorem trimChars_pad {before after : List Char} (hbefore : ∀ c ∈ before, isBlankChar c = true)
    (hafter : ∀ c ∈ after, isBlankChar c = true) (hne : cs ≠ [])
    (hhead : ∀ c ∈ cs.head?, isBlankChar c = false)
    (hlast : ∀ c ∈ cs.getLast?, isBlankChar c = false) :
    trimChars (before ++ cs ++ after) = cs := by
  have hstart : trimStartChars (before ++ cs ++ after) = cs ++ after := by
    unfold trimStartChars
    rw [List.append_assoc]
    exact dropWhile_pad hbefore (by rwa [List.head?_append_of_ne_nil cs hne])
  unfold trimChars
  rw [hstart]
  exact dropWhile_pad_end hafter hlast

theorem trimEndChars_isPrefix (cs : List Char) : trimEndChars cs <+: cs := List.rdropWhile_prefix _ cs

theorem head?_trimChars : ∀ c ∈ (trimChars cs).head?, isBlankChar c = false := by
  intro c hc
  obtain ⟨rest, hrest⟩ := trimEndChars_isPrefix (trimStartChars cs)
  refine head?_dropWhile isBlankChar cs c ?_
  show (trimStartChars cs).head? = some c
  rw [← hrest, List.head?_append]
  exact congrArg (Option.or · rest.head?) (Option.mem_def.mp hc)

theorem getLast?_trimChars : ∀ c ∈ (trimChars cs).getLast?, isBlankChar c = false := by
  intro c hc
  unfold trimChars trimEndChars at hc
  rw [List.getLast?_reverse] at hc
  exact head?_dropWhile _ _ c hc

end

end Text

end DeviceHub
