import DeviceHub.Influx.Writer
import DeviceHub.Proofs.Point.OneLine

/-!
# Steps of the writer

* `linesOf_join`          a body falls apart into the lines of its batch;
* `Writer.Step`           what a step of the writer can be, with `Writer.step_of_step?`;
* `Writer.Step.conserves` the lines that a step posts are the first ones that the writer holds;
* `Writer.Fits`           what the batch can be where the writer stands;
* `Writer.Step.effort_lt` every step brings the writer closer to its end;
* `Writer.offer_cases`    what becomes of a point that is written.
-/

namespace DeviceHub.Influx

def linesOf (body : String) : List String := (body.toList.splitOn '\n').map String.ofList

theorem linesOf_join {lines : List String} (hne : lines ≠ [])
    (hlines : ∀ l ∈ lines, '\n' ∉ l.toList) : linesOf (join lines) = lines := by
  have hclean : ∀ cs ∈ lines.map String.toList, '\n' ∉ cs := by
    intro cs hcs
    obtain ⟨l, hl, rfl⟩ := List.mem_map.mp hcs
    exact hlines l hl
  have hsplit : (join lines).toList.splitOn '\n' = lines.map String.toList := by
    unfold join
    rw [String.toList_intercalate]
    exact List.splitOn_intercalate '\n' hclean (by simpa using hne)
  unfold linesOf
  rw [hsplit, List.map_map]
  exact List.map_id'' (fun l => String.ofList_toList) lines

def Sign.batch? : Sign → Option (List String)
  | .posted lines => some lines
  | _ => none

def batchesOf (signs : List Sign) : List (List String) := signs.filterMap Sign.batch?

theorem batchesOf_append (signs signs' : List Sign) :
    batchesOf (signs ++ signs') = batchesOf signs ++ batchesOf signs' := List.filterMap_append

theorem filterMap_body? (signs : List Sign) :
    signs.filterMap Sign.body? = (batchesOf signs).map join := by
  unfold batchesOf
  rw [List.map_filterMap]
  refine List.filterMap_congr fun sign _ => ?_
  cases sign <;> rfl

namespace Writer

/-- the part of the batch that was not posted -/
def unposted (w : Writer) : List String :=
  match w.stage with
  | .posting => []
  | _ => w.batch

/-- the lines that the writer holds and did not post -/
def held (w : Writer) : List String := w.unposted ++ w.queue

/-- what a step of the writer can be -/
inductive Step (d : Delivery) (w : Writer) : Writer → List Sign → Prop
  | first (line rest) (hstage : w.stage = .waiting) (hqueue : w.queue = line :: rest) :
      Step d w { w with stage := .filling, queue := rest, batch := w.batch ++ [line] } []
  | ended (hstage : w.stage = .waiting) (hqueue : w.queue = []) (hclosed : w.isOpen = false) :
      Step d w { w with stage := .stopped } [.ended]
  | more (line rest) (hstage : w.stage = .filling) (hqueue : w.queue = line :: rest)
      (hroom : w.batch.length < w.batchSize) :
      Step d w { w with queue := rest, batch := w.batch ++ [line] } []
  | post (hstage : w.stage = .filling) : Step d w { w with stage := .posting } [.posted w.batch]
  | answered (hstage : w.stage = .posting) :
      Step d w { w with stage := .waiting, batch := [] } [.logged w.batch.length d]

variable {w w' : Writer} {d : Delivery} {shown : List Sign}

theorem step_of_step? (h : w.step? d = some (w', shown)) : Step d w w' shown := by
  unfold step? at h
  split at h
  · rename_i line rest hstage hqueue
    cases h
    exact .first line rest hstage hqueue
  · rename_i hstage hqueue
    split at h
    · cases h
    · rename_i hclosed
      cases h
      exact .ended hstage hqueue (Bool.eq_false_iff.mpr hclosed)
  · rename_i line rest hstage hqueue
    split at h
    · rename_i hroom
      cases h
      exact .more line rest hstage hqueue hroom
    · cases h
      exact .post hstage
  · rename_i hstage hqueue
    cases h
    exact .post hstage
  · rename_i hstage
    cases h
    exact .answered hstage
  · cases h

/-- A writer that cannot go on has stopped, or waits for a line that someone may write. -/
theorem step?_eq_none (h : w.step? d = none) :
    w.stage = .stopped ∨ w.stage = .waiting ∧ w.queue = [] ∧ w.isOpen = true := by
  unfold step? at h
  split at h
  · cases h
  · rename_i hstage hqueue
    split at h
    · rename_i hopen
      exact Or.inr ⟨hstage, hqueue, hopen⟩
    · cases h
  · split at h <;> cases h
  · cases h
  · cases h
  · rename_i hstage
    exact Or.inl hstage

theorem stopped_of_effort (h : w.effort = 0) : w.stage = .stopped := by
  unfold effort at h
  split at h
  · cases h
  · cases h
  · cases h
  · rename_i hstage
    exact hstage

theorem effort_stopped (h : w.stage = .stopped) : w.effort = 0 := by
  unfold effort
  rw [h]

theorem offer_cases (w : Writer) (p : Point) :
    (∃ e, w.offer p = (w, some e)) ∨
    ∃ line, p.line? = some line ∧ w.stage ≠ .stopped ∧ w.queue.length < w.capacity ∧
      w.offer p = ({ w with queue := w.queue ++ [line] }, none) := by
  unfold offer
  cases hline : p.line? with
  | none => exact Or.inl ⟨_, rfl⟩
  | some line =>
    simp only
    split
    · exact Or.inl ⟨_, rfl⟩
    · rename_i hstage
      split
      · exact Or.inl ⟨_, rfl⟩
      · rename_i hroom
        exact Or.inr ⟨line, rfl, hstage, Nat.lt_of_not_le hroom, rfl⟩

namespace Step

theorem not_stopped (h : Step d w w' shown) : w.stage ≠ .stopped := by
  intro hstopped
  cases h with
  | first _ _ hstage | ended hstage | more _ _ hstage | post hstage | answered hstage =>
    cases hstage.symm.trans hstopped

theorem isOpen (h : Step d w w' shown) : w'.isOpen = w.isOpen := by
  cases h <;> rfl

theorem capacity (h : Step d w w' shown) : w'.capacity = w.capacity := by
  cases h <;> rfl

theorem batchSize (h : Step d w w' shown) : w'.batchSize = w.batchSize := by
  cases h <;> rfl

theorem queue_le (h : Step d w w' shown) : w'.queue.length ≤ w.queue.length := by
  cases h with
  | first line rest _ hqueue | more line rest _ hqueue =>
    rw [hqueue, List.length_cons]
    exact Nat.le_succ _
  | _ => exact Nat.le_refl _

theorem conserves (h : Step d w w' shown) : (batchesOf shown).flatten ++ w'.held = w.held := by
  cases h with
  | first line rest hstage hqueue =>
    show w.batch ++ [line] ++ rest = w.held
    unfold held unposted
    rw [hstage, hqueue, List.append_assoc]
    rfl
  | ended hstage =>
    show w.batch ++ w.queue = w.held
    unfold held unposted
    rw [hstage]
  | more line rest hstage hqueue =>
    unfold held unposted
    simp only [hstage, hqueue]
    show w.batch ++ [line] ++ rest = w.batch ++ line :: rest
    rw [List.append_assoc]
    rfl
  | post hstage =>
    show w.batch ++ [] ++ w.queue = w.held
    unfold held unposted
    rw [hstage, List.append_nil]
  | answered hstage =>
    show w.queue = w.held
    unfold held unposted
    rw [hstage]
    rfl

/-- Every step brings the writer closer to its end. -/
theorem effort_lt (h : Step d w w' shown) : w'.effort < w.effort := by
  cases h with
  | first line rest hstage hqueue | more line rest hstage hqueue =>
    simp only [effort, hstage, hqueue, List.length_cons]
    omega
  | ended hstage | post hstage | answered hstage =>
    simp only [effort, hstage]
    omega

end Step

/-- What the batch can be where the writer stands. -/
def Fits (w : Writer) : Prop :=
  match w.stage with
  | .waiting => w.batch = []
  | .filling | .posting => w.batch ≠ [] ∧ w.batch.length ≤ w.batchSize
  | .stopped => w.batch = [] ∧ w.queue = []

theorem fits_new (capacity batchSize : Nat) : (new capacity batchSize).Fits := rfl

theorem fits_stop (w : Writer) : w.stop.Fits := ⟨rfl, rfl⟩

theorem Fits.close (h : w.Fits) : w.close.Fits := h

theorem Fits.queued (h : w.Fits) (hstage : w.stage ≠ .stopped) (queue : List String) :
    Fits { w with queue := queue } := by
  unfold Fits at h ⊢
  split at h
  all_goals
    rename_i hs
    simp only [hs]
  · exact h
  · exact h
  · exact h
  · exact absurd hs hstage

theorem Fits.step (hfits : w.Fits) (hsize : 0 < w.batchSize) (h : Step d w w' shown) : w'.Fits := by
  unfold Fits at hfits
  cases h with
  | first line rest hstage hqueue =>
    simp only [hstage] at hfits
    show w.batch ++ [line] ≠ [] ∧ (w.batch ++ [line]).length ≤ w.batchSize
    rw [hfits]
    exact ⟨List.cons_ne_nil _ _, hsize⟩
  | ended hstage hqueue =>
    simp only [hstage] at hfits
    exact ⟨hfits, hqueue⟩
  | more line rest hstage hqueue hroom =>
    unfold Fits
    simp only [hstage, List.length_append, List.length_singleton]
    exact ⟨by simp, hroom⟩
  | post hstage =>
    simp only [hstage] at hfits
    exact hfits
  | answered hstage => rfl

theorem Fits.held_eq_nil (h : w.Fits) (hstage : w.stage = .stopped) : w.held = [] := by
  unfold Fits at h
  simp only [hstage] at h
  unfold held unposted
  simp only [hstage, h.1, h.2, List.append_nil]

theorem Step.batch_eq (h : Step d w w' shown) {b : List String} (hb : b ∈ batchesOf shown) :
    w.stage = .filling ∧ b = w.batch := by
  cases h with
  | post hstage => exact ⟨hstage, List.mem_singleton.mp hb⟩
  | _ => cases hb

theorem Step.posting (h : Step d w w' shown) (hstage : w'.stage = .posting) :
    batchesOf shown = [w'.batch] := by
  cases h with
  | post => rfl
  | more _ _ hfilling => cases hfilling.symm.trans hstage
  | _ => cases hstage

theorem Fits.posted (hfits : w.Fits) (h : Step d w w' shown) {b : List String}
    (hb : b ∈ batchesOf shown) : b ≠ [] ∧ b.length ≤ w.batchSize := by
  obtain ⟨hstage, rfl⟩ := h.batch_eq hb
  unfold Fits at hfits
  simpa only [hstage] using hfits

end Writer

end DeviceHub.Influx
