import DeviceHub.Point.Line
import DeviceHub.Proofs.Point.Reader

/-!
# Names are read back unless they end in a backslash

* `marked`               a name as it is written: separators are marked, line breaks are spaces;
* `token_marked`         the reader takes a name as a whole, and goes on after it;
* `unmark_marked`        without its marks the name is the old one;
* `token_of_not_ends`    a name that ends in no backslash ends at the separator after it;
* `not_ends_of_unmark`   a name that ends in a backslash swallows that separator and is another one.
-/

namespace DeviceHub.Point

/-- a character, or a space instead of a line break -/
def spaced (c : Char) : Char := if c = '\r' ∨ c = '\n' then ' ' else c

/-- a text with spaces instead of line breaks -/
def unbroken (s : String) : String := .ofList (s.toList.map spaced)

/-- Whether a text ends in a backslash. -/
def EndsInBackslash (s : String) : Prop := s.toList.getLast? = some '\\'

instance (s : String) : Decidable (EndsInBackslash s) :=
  inferInstanceAs (Decidable (s.toList.getLast? = some '\\'))

namespace Reader

variable {seps : List Char}

def marked (seps cs : List Char) : List Char := cs.flatMap (escapeChar seps)

theorem marked_cons_special {c : Char} (h : spaced c ∈ seps) (cs : List Char) :
    marked seps (c :: cs) = '\\' :: spaced c :: marked seps cs := by
  have hc : escapeChar seps c = ['\\', spaced c] := if_pos h
  unfold marked
  rw [List.flatMap_cons, hc]
  rfl

theorem marked_cons_plain {c : Char} (h : spaced c ∉ seps) (cs : List Char) :
    marked seps (c :: cs) = spaced c :: marked seps cs := by
  have hc : escapeChar seps c = [spaced c] := if_neg h
  unfold marked
  rw [List.flatMap_cons, hc]
  rfl

theorem marked_append (cs ds : List Char) :
    marked seps (cs ++ ds) = marked seps cs ++ marked seps ds := List.flatMap_append

theorem spaced_eq_backslash {c : Char} : spaced c = '\\' ↔ c = '\\' := by
  unfold spaced
  split
  · rename_i h
    rcases h with rfl | rfl <;> decide
  · exact Iff.rfl

/-! ## How far a name goes -/

/-- whether a backslash stands before what follows a text, when one does before the text or not -/
def endsMarked (b : Bool) (cs : List Char) : Bool := cs.foldl (fun _ c => c = '\\') b

theorem endsMarked_cons (b : Bool) (c : Char) (cs : List Char) :
    endsMarked b (c :: cs) = endsMarked (c = '\\') cs := rfl

theorem endsMarked_iff (cs : List Char) :
    endsMarked false cs = true ↔ cs.getLast? = some '\\' := by
  rcases List.eq_nil_or_concat cs with rfl | ⟨ds, c, rfl⟩
  · simp [endsMarked]
  · simp [endsMarked, List.foldl_append]

theorem token_taken {b : Bool} {c : Char} (h : ¬ (b = false ∧ c ∈ seps)) (cs : List Char) :
    token seps b (c :: cs) =
      (c :: (token seps (c = '\\') cs).1, (token seps (c = '\\') cs).2) := by
  rw [token, if_neg h]

theorem token_stopped {c : Char} (h : c ∈ seps) (cs : List Char) :
    token seps false (c :: cs) = ([], c :: cs) := by
  rw [token, if_pos ⟨rfl, h⟩]

/-- No separator inside of a written name ends it. -/
theorem token_marked (hseps : '\\' ∉ seps) (b : Bool) (cs rest : List Char) :
    token seps b (marked seps cs ++ rest) =
      (marked seps cs ++ (token seps (endsMarked b cs) rest).1,
        (token seps (endsMarked b cs) rest).2) := by
  induction cs generalizing b with
  | nil => rfl
  | cons c cs ih =>
    rw [endsMarked_cons]
    have hflag : decide (spaced c = '\\') = decide (c = '\\') := by simp only [spaced_eq_backslash]
    by_cases hc : spaced c ∈ seps
    · rw [marked_cons_special hc, List.cons_append, List.cons_append,
        token_taken (fun h => hseps h.2), token_taken (by simp), hflag, ih]
      rfl
    · rw [marked_cons_plain hc, List.cons_append, token_taken (fun h => hc h.2), hflag, ih]
      rfl

/-! ## What a name is without its marks -/

theorem unmark_mark {d : Char} (hd : d ∈ seps) (cs : List Char) :
    unmark seps ('\\' :: d :: cs) = d :: unmark seps cs := by
  rw [unmark, if_pos ⟨rfl, hd⟩]

theorem unmark_cons {c : Char} {cs : List Char}
    (h : c = '\\' → ∀ d ∈ cs.head?, d ∉ seps) : unmark seps (c :: cs) = c :: unmark seps cs := by
  cases cs with
  | nil => rfl
  | cons d cs => rw [unmark, if_neg fun hmark => h hmark.1 d rfl hmark.2]

theorem head?_marked (hseps : '\\' ∉ seps) {rest : List Char} (hrest : ∀ d ∈ rest.head?, d ∉ seps)
    (cs : List Char) : ∀ d ∈ (marked seps cs ++ rest).head?, d ∉ seps := by
  cases cs with
  | nil => exact hrest
  | cons c cs =>
    intro d hd
    by_cases hc : spaced c ∈ seps
    · rw [marked_cons_special hc] at hd
      rwa [← Option.some.inj hd]
    · rw [marked_cons_plain hc] at hd
      rwa [← Option.some.inj hd]

theorem unmark_marked_append (hseps : '\\' ∉ seps) {rest : List Char}
    (hrest : ∀ d ∈ rest.head?, d ∉ seps) (cs : List Char) :
    unmark seps (marked seps cs ++ rest) = cs.map spaced ++ unmark seps rest := by
  induction cs with
  | nil => rfl
  | cons c cs ih =>
    by_cases hc : spaced c ∈ seps
    · rw [marked_cons_special hc, List.cons_append, List.cons_append, unmark_mark hc, ih]
      rfl
    · rw [marked_cons_plain hc, List.cons_append,
        unmark_cons fun _ => head?_marked hseps hrest cs, ih]
      rfl

theorem unmark_marked (hseps : '\\' ∉ seps) (cs : List Char) :
    unmark seps (marked seps cs) = cs.map spaced := by
  have h : unmark seps (marked seps cs ++ []) = cs.map spaced ++ unmark seps [] :=
    unmark_marked_append hseps (fun d hd => by cases hd) cs
  rwa [List.append_nil, show unmark seps [] = [] from rfl, List.append_nil] at h

/-! ## Names in front of a separator -/

section
variable (hseps : '\\' ∉ seps) {s : String} {c : Char} (hc : c ∈ seps) (rest : List Char)
include hseps hc

theorem token_of_not_ends (hs : ¬ EndsInBackslash s) :
    token seps false (marked seps s.toList ++ c :: rest) = (marked seps s.toList, c :: rest) := by
  have hopen : endsMarked false s.toList = false := by
    rw [Bool.eq_false_iff]
    exact fun h => hs ((endsMarked_iff s.toList).mp h)
  rw [token_marked hseps, hopen, token_stopped hc, List.append_nil]

/-- A name that is read back ends in no backslash: otherwise the separator after it would stand
where the backslash does. -/
theorem not_ends_of_unmark
    (h : unmark seps (token seps false (marked seps s.toList ++ c :: rest)).1 =
      s.toList.map spaced) : ¬ EndsInBackslash s := by
  intro hs
  have hcs : c ≠ '\\' := fun heq => hseps (heq ▸ hc)
  obtain ⟨front, hfront⟩ := List.getLast?_eq_some_iff.mp hs
  have hmarked : endsMarked false s.toList = true := (endsMarked_iff s.toList).mpr hs
  have hlast : marked seps ['\\'] = ['\\'] := by
    rw [marked_cons_plain (show spaced '\\' ∉ seps from hseps)]
    rfl
  rw [token_marked hseps, hmarked, token_taken (by simp), hfront, marked_append, hlast,
    List.append_assoc, List.singleton_append,
    unmark_marked_append hseps (fun d hd => by rwa [← Option.some.inj hd]), unmark_mark hc,
    List.map_append] at h
  have htail := List.append_cancel_left h
  exact hcs (List.cons_eq_cons.mp htail).1

end

end Reader

end DeviceHub.Point
