import DeviceHub.Proofs.Influx.Steps

/-!
# What becomes of accepted points

Points are written while the writer goes on step by step, in any order, until no one writes any more
or the writer is ended from outside.

* `Course`                 a writer with the calls that were made and the signs that it showed;
* `Course.Sound`           where the accepted lines are, with `Sound.write`, `Sound.step`,
                           `Sound.stop` and `Sound.after`;
* `Course.ends`            once no one writes any more, the writer comes to its end;
* `Sound.linesOf_drain`    what it posts until then;
* `every_line_is_posted`   no line is lost, doubled or moved.
-/

namespace DeviceHub.Influx

/-- what can happen -/
inductive Act
  /-- a point is written -/
  | write (p : Point)
  /-- The writer goes on.  If it waits for the answer to a post, `d` is that answer. -/
  | step (d : Delivery)
  /-- all who could write are gone -/
  | close
  /-- the writer is ended from outside -/
  | stop

/-- the line that a call put into the queue -/
def acceptedLine? : Point × Option SinkError → Option String
  | (p, none) => p.line?
  | (_, some _) => none

/-- the writer, the calls that were made with their results, the signs that it showed, and the lines
that it held when it was ended from outside -/
structure Course where
  writer : Writer
  calls : List (Point × Option SinkError) := []
  signs : List Sign := []
  lost : List String := []

namespace Course

def bodies (c : Course) : List String := c.signs.filterMap Sign.body?

def accepted (c : Course) : List String := c.calls.filterMap acceptedLine?

/-- the course after something happened; once it is closed no one can write -/
def act (c : Course) : Act → Course
  | .write p =>
    if c.writer.isOpen then
      { c with writer := (c.writer.offer p).1, calls := c.calls ++ [(p, (c.writer.offer p).2)] }
    else c
  | .step d =>
    match c.writer.step? d with
    | some (w, shown) => { c with writer := w, signs := c.signs ++ shown }
    | none => c
  | .close => { c with writer := c.writer.close }
  | .stop => { c with writer := c.writer.stop, lost := c.lost ++ c.writer.held }

def after (c : Course) (acts : List Act) : Course := acts.foldl act c

def new (capacity batchSize : Nat) : Course := { writer := .new capacity batchSize }

theorem after_cons (c : Course) (a : Act) (acts : List Act) :
    c.after (a :: acts) = (c.act a).after acts := rfl

theorem after_append (c : Course) (acts acts' : List Act) :
    c.after (acts ++ acts') = (c.after acts).after acts' := List.foldl_append

variable {c : Course}

theorem newline_not_mem_accepted {line : String} (h : line ∈ c.accepted) : '\n' ∉ line.toList := by
  obtain ⟨⟨p, e⟩, -, hline⟩ := List.mem_filterMap.mp h
  cases e with
  | none => exact Point.newline_not_mem_line hline
  | some e => cases hline

theorem accepted_refused (c : Course) (p : Point) (e : SinkError) :
    (c.calls ++ [(p, some e)]).filterMap acceptedLine? = c.accepted := by
  rw [List.filterMap_append]
  exact List.append_nil _

theorem accepted_line (c : Course) {p : Point} {line : String} (hline : p.line? = some line) :
    (c.calls ++ [(p, none)]).filterMap acceptedLine? = c.accepted ++ [line] := by
  have hone : acceptedLine? (p, none) = some line := hline
  rw [List.filterMap_append, List.filterMap_cons_some hone]
  rfl

/-- Every accepted line was posted, is held by the writer, or was lost, in this order. -/
structure Sound (capacity batchSize : Nat) (c : Course) : Prop where
  conserved : (batchesOf c.signs).flatten ++ c.writer.held ++ c.lost = c.accepted
  /-- a writer that was not ended lost nothing -/
  kept : c.writer.stage ≠ .stopped → c.lost = []
  capacity : c.writer.capacity = max capacity 1
  batchSize : c.writer.batchSize = max batchSize 1
  room : c.writer.queue.length ≤ c.writer.capacity
  fits : c.writer.Fits
  posted : ∀ b ∈ batchesOf c.signs, b ≠ [] ∧ b.length ≤ c.writer.batchSize
  posting : c.writer.stage = .posting → (batchesOf c.signs).getLast? = some c.writer.batch

namespace Sound

variable {capacity batchSize : Nat}

theorem new (capacity batchSize : Nat) : (new capacity batchSize).Sound capacity batchSize where
  conserved := rfl
  kept _ := rfl
  capacity := rfl
  batchSize := rfl
  room := Nat.zero_le _
  fits := Writer.fits_new capacity batchSize
  posted _ hb := absurd hb List.not_mem_nil
  posting h := by cases h

theorem size_pos (h : c.Sound capacity batchSize) : 0 < c.writer.batchSize := by
  rw [h.batchSize]
  exact Nat.lt_of_lt_of_le Nat.one_pos (Nat.le_max_right batchSize 1)

theorem accept (h : c.Sound capacity batchSize) {p : Point} {line : String}
    (hline : p.line? = some line) (hstage : c.writer.stage ≠ .stopped)
    (hroom : c.writer.queue.length < c.writer.capacity) :
    Sound capacity batchSize { c with
      writer := { c.writer with queue := c.writer.queue ++ [line] }
      calls := c.calls ++ [(p, none)] } := by
  have hconserved := h.conserved
  rw [h.kept hstage, List.append_nil] at hconserved
  exact { h with
    conserved := by
      show (batchesOf c.signs).flatten ++ (c.writer.unposted ++ (c.writer.queue ++ [line])) ++
        c.lost = (c.calls ++ [(p, none)]).filterMap acceptedLine?
      rw [accepted_line c hline, ← hconserved, h.kept hstage, List.append_nil, Writer.held,
        ← List.append_assoc c.writer.unposted, ← List.append_assoc]
    room := by
      show (c.writer.queue ++ [line]).length ≤ c.writer.capacity
      rw [List.length_append]
      exact hroom
    fits := h.fits.queued hstage _ }

theorem write (h : c.Sound capacity batchSize) (p : Point) :
    (c.act (.write p)).Sound capacity batchSize := by
  unfold act
  simp only
  split
  · rcases c.writer.offer_cases p with ⟨e, hoffer⟩ | ⟨line, hline, hstage, hroom, hoffer⟩
    · rw [hoffer]
      exact { h with conserved := h.conserved.trans (accepted_refused c p e).symm }
    · rw [hoffer]
      exact h.accept hline hstage hroom
  · exact h

theorem taken (h : c.Sound capacity batchSize) {d : Delivery} {w : Writer} {shown : List Sign}
    (hstep : c.writer.Step d w shown) :
    Sound capacity batchSize { c with writer := w, signs := c.signs ++ shown } where
  conserved := by
    show (batchesOf (c.signs ++ shown)).flatten ++ w.held ++ c.lost = c.accepted
    rw [batchesOf_append, List.flatten_append, List.append_assoc _ _ w.held, hstep.conserves]
    exact h.conserved
  kept _ := h.kept hstep.not_stopped
  capacity := hstep.capacity.trans h.capacity
  batchSize := hstep.batchSize.trans h.batchSize
  room := by
    show w.queue.length ≤ w.capacity
    rw [hstep.capacity]
    exact hstep.queue_le.trans h.room
  fits := h.fits.step h.size_pos hstep
  posted b hb := by
    have hsize : w.batchSize = c.writer.batchSize := hstep.batchSize
    show b ≠ [] ∧ b.length ≤ w.batchSize
    rw [hsize]
    replace hb : b ∈ batchesOf (c.signs ++ shown) := hb
    rw [batchesOf_append] at hb
    rcases List.mem_append.mp hb with hb | hb
    · exact h.posted b hb
    · exact h.fits.posted hstep hb
  posting hstage := by
    show (batchesOf (c.signs ++ shown)).getLast? = some w.batch
    rw [batchesOf_append, hstep.posting hstage, List.getLast?_concat]

theorem step (h : c.Sound capacity batchSize) (d : Delivery) :
    (c.act (.step d)).Sound capacity batchSize := by
  unfold act
  simp only
  split
  · rename_i w shown hstep
    exact h.taken (Writer.step_of_step? hstep)
  · exact h

theorem close (h : c.Sound capacity batchSize) : (c.act .close).Sound capacity batchSize :=
  { h with fits := h.fits.close }

theorem stop (h : c.Sound capacity batchSize) : (c.act .stop).Sound capacity batchSize where
  conserved := by
    show (batchesOf c.signs).flatten ++ [] ++ (c.lost ++ c.writer.held) = c.accepted
    rw [← h.conserved, List.append_nil, List.append_assoc]
    by_cases hstage : c.writer.stage = .stopped
    · rw [h.fits.held_eq_nil hstage, List.append_nil, List.nil_append]
    · rw [h.kept hstage, List.append_nil, List.nil_append]
  kept hstage := absurd rfl hstage
  capacity := h.capacity
  batchSize := h.batchSize
  room := Nat.zero_le _
  fits := c.writer.fits_stop
  posted := h.posted
  posting hstage := by cases hstage

theorem act (h : c.Sound capacity batchSize) (a : Act) : (c.act a).Sound capacity batchSize := by
  cases a with
  | write p => exact h.write p
  | step d => exact h.step d
  | close => exact h.close
  | stop => exact h.stop

theorem after (h : c.Sound capacity batchSize) (acts : List Act) :
    (c.after acts).Sound capacity batchSize := by
  induction acts generalizing c with
  | nil => exact h
  | cons a acts ih => exact ih (h.act a)

theorem map_linesOf (h : c.Sound capacity batchSize) :
    c.bodies.map linesOf = batchesOf c.signs := by
  have hlines : ∀ b ∈ batchesOf c.signs, linesOf (join b) = b := by
    intro b hb
    refine linesOf_join (h.posted b hb).1 fun l hl => newline_not_mem_accepted (c := c) ?_
    rw [← h.conserved, List.append_assoc]
    exact List.mem_append_left _ (List.mem_flatten_of_mem hb hl)
  unfold bodies
  rw [filterMap_body?, List.map_map]
  exact (List.map_congr_left hlines).trans (List.map_id _)

end Sound

/-! ## The end of the writer -/

theorem lost_act (c : Course) {a : Act} (ha : a ≠ .stop) : (c.act a).lost = c.lost := by
  cases a with
  | write p =>
    unfold act
    simp only
    split <;> rfl
  | step d =>
    unfold act
    simp only
    split <;> rfl
  | close => rfl
  | stop => exact absurd rfl ha

theorem lost_after (c : Course) {acts : List Act} (h : Act.stop ∉ acts) :
    (c.after acts).lost = c.lost := by
  induction acts generalizing c with
  | nil => rfl
  | cons a acts ih =>
    rw [List.mem_cons, not_or] at h
    rw [after_cons, ih _ h.2, lost_act c (Ne.symm h.1)]

/-- A writer that was closed and has not stopped goes on, and comes closer to its end. -/
theorem step_closed (hclosed : c.writer.isOpen = false) (hstage : c.writer.stage ≠ .stopped)
    (d : Delivery) : (c.act (.step d)).writer.isOpen = false ∧
      (c.act (.step d)).writer.effort < c.writer.effort := by
  unfold act
  simp only
  split
  · rename_i w shown hstep
    have hstep := Writer.step_of_step? hstep
    exact ⟨hstep.isOpen.trans hclosed, hstep.effort_lt⟩
  · rename_i hnone
    rcases Writer.step?_eq_none hnone with hstopped | ⟨-, -, hopen⟩
    · exact absurd hstopped hstage
    · cases hclosed.symm.trans hopen

theorem step_stopped (hstage : c.writer.stage = .stopped) (d : Delivery) :
    c.act (.step d) = c := by
  unfold act
  simp only
  split
  · rename_i w shown hstep
    exact absurd hstage (Writer.step_of_step? hstep).not_stopped
  · rfl

/-- Once no one writes any more, the writer comes to its end, whatever the answers to its posts
are. -/
theorem ends (hclosed : c.writer.isOpen = false) {ds : List Delivery}
    (hds : c.writer.effort ≤ ds.length) : (c.after (ds.map .step)).writer.stage = .stopped := by
  induction ds generalizing c with
  | nil => exact Writer.stopped_of_effort (Nat.le_zero.mp hds)
  | cons d ds ih =>
    rw [List.map_cons, after_cons]
    by_cases hstage : c.writer.stage = .stopped
    · rw [step_stopped hstage]
      exact ih hclosed (Writer.effort_stopped hstage ▸ Nat.zero_le _)
    · obtain ⟨hclosed', heffort⟩ := step_closed hclosed hstage d
      exact ih hclosed' (Nat.le_of_lt_succ (Nat.lt_of_lt_of_le heffort hds))

theorem accepted_steps (c : Course) (ds : List Delivery) :
    (c.after (ds.map .step)).accepted = c.accepted := by
  induction ds generalizing c with
  | nil => rfl
  | cons d ds ih =>
    have hcalls : (c.act (.step d)).accepted = c.accepted := by
      unfold act
      simp only
      split <;> rfl
    rw [List.map_cons, after_cons, ih, hcalls]

theorem Sound.posted_of_stopped {capacity batchSize : Nat} (h : c.Sound capacity batchSize)
    (hstage : c.writer.stage = .stopped) (hlost : c.lost = []) :
    c.bodies.flatMap linesOf = c.accepted := by
  rw [List.flatMap_def, h.map_linesOf, ← h.conserved, h.fits.held_eq_nil hstage, hlost,
    List.append_nil, List.append_nil]

theorem signs_steps (c : Course) (n : Nat) :
    (c.after ((List.replicate n .written).map .step)).signs = c.signs ++ c.writer.signs n := by
  induction n generalizing c with
  | zero => exact (List.append_nil c.signs).symm
  | succ n ih =>
    rw [List.replicate_succ, List.map_cons, after_cons, ih, Writer.signs]
    unfold act
    simp only
    cases hstep : c.writer.step? .written with
    | some r => exact List.append_assoc _ _ _
    | none =>
      have hnone : c.writer.signs n = [] := by
        cases n with
        | zero => rfl
        | succ n =>
          rw [Writer.signs, hstep]
      simp only [hnone]

/-- A writer that has not stopped posts what it holds when no one writes any more. -/
theorem Sound.linesOf_drain {capacity batchSize : Nat} (h : c.Sound capacity batchSize)
    (hstage : c.writer.stage ≠ .stopped) :
    c.writer.drain.flatMap linesOf = c.writer.held := by
  let acts : List Act := (List.replicate c.writer.close.effort .written).map .step
  have hstopped : ((c.act .close).after acts).writer.stage = .stopped :=
    ends rfl (by rw [List.length_replicate]; rfl)
  have hlost : ((c.act .close).after acts).lost = [] := by
    rw [lost_after _ (by simp [acts])]
    exact h.kept hstage
  have hposted : ((c.act .close).after acts).bodies.flatMap linesOf = c.accepted :=
    ((h.close.after acts).posted_of_stopped hstopped hlost).trans (accepted_steps _ _)
  have hbodies : ((c.act .close).after acts).bodies = c.bodies ++ c.writer.drain := by
    unfold bodies
    rw [signs_steps, List.filterMap_append]
    rfl
  have hbefore : c.bodies.flatMap linesOf ++ c.writer.held = c.accepted := by
    rw [← h.conserved, h.kept hstage, List.append_nil, List.flatMap_def, h.map_linesOf]
  rw [hbodies, List.flatMap_append, ← hbefore] at hposted
  exact List.append_cancel_left hposted

end Course

end DeviceHub.Influx
