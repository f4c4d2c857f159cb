import DeviceHub.Proofs.Text.Ends
import DeviceHub.Proofs.Topic

/-!
# The levels of topics

A topic is a sequence of levels with slashes between them, and a filter matches topics level by level.

* `Topic.levels`, `Topic.Matches`   the levels of a topic, and the topics that a filter matches;
* `levels_append_slash`, `levels_of_not_mem`, `levels_injective`   how levels make up a topic;
* `not_mem_of_mem_levels`   no level has a slash in it;
* `levels_root`, `levels_command`   the levels of a topic under the root, and of one for commands;
* `Topic.firstLevel`, `exists_rest`   the level that a text begins with, and what follows it;
* `device?_root`, `device?_command`   the device of a topic is the level after the root.
-/

namespace DeviceHub.Topic

/-- the levels of a topic or a filter -/
def levels (topic : String) : List String := (topic.toList.splitOn '/').map String.ofList

/-- A filter matches a topic level by level, where `+` stands for any one level. -/
def Matches (filter topic : String) : Prop :=
  List.Forall₂ (fun f level => f = "+" ∨ f = level) (levels filter) (levels topic)

instance (filter topic : String) : Decidable (Matches filter topic) :=
  inferInstanceAs (Decidable (List.Forall₂ _ _ _))

section
variable (a b : String)

theorem levels_append_slash : levels (a ++ "/" ++ b) = levels a ++ levels b := by
  unfold levels
  rw [String.toList_append, String.toList_append, List.append_assoc, ← List.map_append,
    ← List.splitOn_append_cons_self]
  rfl

variable {a}

theorem levels_of_not_mem (h : '/' ∉ a.toList) : levels a = [a] := by
  unfold levels
  rw [List.splitOn_eq_singleton h, List.map_singleton, String.ofList_toList]

theorem levels_slash (h : '/' ∉ a.toList) : levels (a ++ "/" ++ b) = a :: levels b := by
  rw [levels_append_slash, levels_of_not_mem h]
  rfl

end

theorem levels_injective : Function.Injective levels := by
  intro a b h
  have hlists : a.toList.splitOn '/' = b.toList.splitOn '/' :=
    List.map_injective_iff.mpr (fun _ _ => String.ofList_injective) h
  have hjoined := congrArg ['/'].intercalate hlists
  rw [List.intercalate_splitOn, List.intercalate_splitOn] at hjoined
  exact String.toList_injective hjoined

theorem not_mem_of_mem_splitOn {cs part : List Char} (h : part ∈ cs.splitOn '/') : '/' ∉ part := by
  induction cs generalizing part with
  | nil =>
    rw [List.splitOn_nil, List.mem_singleton] at h
    subst h
    exact List.not_mem_nil
  | cons c cs ih =>
    rw [List.splitOn_cons_eq_if_modifyHead] at h
    split at h
    · rcases List.mem_cons.mp h with rfl | h
      · exact List.not_mem_nil
      · exact ih h
    · rename_i hc
      cases hparts : cs.splitOn '/' with
      | nil => exact absurd hparts (List.splitOn_ne_nil _ _)
      | cons first parts =>
        rw [hparts] at h
        rcases List.mem_cons.mp h with rfl | h
        · have hfirst : '/' ∉ first := ih (hparts ▸ List.mem_cons_self)
          refine fun hmem => (List.mem_cons.mp hmem).elim (fun heq => hc ?_) hfirst
          rw [← heq]
          rfl
        · exact ih (hparts ▸ List.mem_cons_of_mem _ h)

theorem not_mem_of_mem_levels {topic level : String} (h : level ∈ levels topic) :
    '/' ∉ level.toList := by
  obtain ⟨part, hpart, rfl⟩ := List.mem_map.mp h
  rw [String.toList_ofList]
  exact not_mem_of_mem_splitOn hpart

theorem levels_root (s : String) : levels (root ++ s) = "v1" :: "dev" :: levels s := by
  have hroot : root ++ s = "v1" ++ "/" ++ ("dev" ++ "/" ++ s) := by
    rw [← String.append_assoc, ← String.append_assoc]
    exact congrArg (· ++ s) (by decide)
  rw [hroot, levels_slash _ (by decide), levels_slash _ (by decide)]

theorem levels_root_level {level : String} (h : '/' ∉ level.toList) (ending : String) :
    levels (root ++ level ++ "/" ++ ending) = "v1" :: "dev" :: level :: levels ending := by
  have hassoc : root ++ level ++ "/" ++ ending = root ++ (level ++ "/" ++ ending) := by
    rw [String.append_assoc, String.append_assoc, String.append_assoc]
  rw [hassoc, levels_root, levels_slash _ h]

/-! ## The first level -/

def firstLevel (s : String) : String := String.ofList (s.toList.takeWhile (· ≠ '/'))

/-- The device of a topic under the root is the level after it. -/
theorem device?_root {level : String} (h : '/' ∉ level.toList) (rest : String) :
    device? (root ++ level ++ "/" ++ rest) = if level = "" then none else some level := by
  have hlist : (root ++ level ++ "/" ++ rest).toList =
      root.toList ++ (level.toList ++ '/' :: rest.toList) := by
    rw [String.toList_append, String.toList_append, String.toList_append, List.append_assoc,
      List.append_assoc]
    rfl
  have hbefore : beforeSlash? (level.toList ++ '/' :: rest.toList) = some level.toList := by
    unfold beforeSlash?
    rw [if_pos (by simp), takeWhile_ne_append h]
  unfold device?
  rw [hlist, if_pos (List.isPrefixOf_iff_prefix.mpr (List.prefix_append _ _)), List.drop_left,
    hbefore]
  cases hlevel : level.toList with
  | nil => rw [if_pos (String.toList_eq_nil_iff.mp hlevel)]
  | cons c cs =>
    rw [if_neg fun heq => by rw [heq] at hlevel; cases hlevel]
    show some (String.ofList (c :: cs)) = some level
    rw [← hlevel, String.ofList_toList]

theorem firstLevel_of_not_mem {s : String} (h : '/' ∉ s.toList) : firstLevel s = s := by
  unfold firstLevel
  rw [takeWhile_ne h, String.ofList_toList]

theorem firstLevel_slash {level : String} (h : '/' ∉ level.toList) (rest : String) :
    firstLevel (level ++ "/" ++ rest) = level := by
  unfold firstLevel
  rw [String.toList_append, String.toList_append, List.append_assoc]
  refine (congrArg String.ofList (takeWhile_ne_append h rest.toList)).trans String.ofList_toList

/-- A text with a slash is its first level, a slash, and a rest. -/
theorem exists_rest {s : String} (h : '/' ∈ s.toList) :
    ∃ level rest : String, '/' ∉ level.toList ∧ s = level ++ "/" ++ rest := by
  obtain ⟨before, after, hsplit, hbefore⟩ := List.eq_append_cons_of_mem h
  refine ⟨String.ofList before, String.ofList after, by rwa [String.toList_ofList], ?_⟩
  refine String.toList_injective ?_
  rw [hsplit, String.toList_append, String.toList_append, List.append_assoc]
  simp

theorem not_mem_firstLevel (s : String) : '/' ∉ (firstLevel s).toList := by
  unfold firstLevel
  rw [String.toList_ofList]
  intro hmem
  have hne := List.mem_takeWhile_imp (p := fun c => decide (c ≠ '/')) hmem
  exact absurd hne (by decide)

/-! ## Topics for commands -/

section
variable (device : String)

theorem levels_command : levels (command device) = ["v1", "dev"] ++ levels device ++ ["cmd"] := by
  have hcommand : command device = root ++ (device ++ "/" ++ "cmd") := by
    unfold command
    rw [String.append_assoc, String.append_assoc]
    rfl
  have hcmd : '/' ∉ "cmd".toList := by decide
  rw [hcommand, levels_root, levels_append_slash, levels_of_not_mem hcmd]
  rfl

theorem command_injective : Function.Injective command := by
  intro a b h
  exact (String.append_right_inj root).mp ((String.append_left_inj "/cmd").mp h)

/-- The topic for commands to a device names the first level of its name. -/
theorem device?_command :
    device? (command device) = if firstLevel device = "" then none else some (firstLevel device) := by
  by_cases h : '/' ∈ device.toList
  · obtain ⟨level, rest, hlevel, rfl⟩ := exists_rest h
    have hcommand : command (level ++ "/" ++ rest) = root ++ level ++ "/" ++ (rest ++ "/cmd") := by
      unfold command
      rw [← String.append_assoc, ← String.append_assoc, ← String.append_assoc]
    rw [hcommand, device?_root hlevel, firstLevel_slash hlevel]
  · have hcommand : command device = root ++ device ++ "/" ++ "cmd" := by
      have hassoc : root ++ device ++ "/" ++ "cmd" = root ++ device ++ ("/" ++ "cmd") :=
        String.append_assoc
      exact hassoc.symm
    rw [hcommand, device?_root h, firstLevel_of_not_mem h]

theorem device?_command_eq_iff {device' : String} :
    device? (command device') = device? (command device) ↔ firstLevel device' = firstLevel device := by
  rw [device?_command, device?_command]
  constructor
  · intro h
    split at h
    · rename_i hempty
      split at h
      · rename_i hempty'
        rw [hempty, hempty']
      · cases h
    · split at h
      · cases h
      · exact Option.some.inj h
  · intro h
    rw [h]

theorem device?_command_eq_self_iff (h : device ≠ "") :
    device? (command device) = some device ↔ '/' ∉ device.toList := by
  rw [device?_command]
  constructor
  · intro hself
    split at hself
    · cases hself
    · exact Option.some.inj hself ▸ not_mem_firstLevel device
  · intro hslash
    rw [firstLevel_of_not_mem hslash, if_neg h]

theorem levels_command_eq_iff :
    levels (command device) = ["v1", "dev", device, "cmd"] ↔ '/' ∉ device.toList := by
  rw [levels_command]
  constructor
  · intro h
    have hlast : levels device ++ ["cmd"] = [device] ++ ["cmd"] := by simpa using h
    have hlevels : levels device = [device] := List.append_cancel_right hlast
    have hmem : device ∈ levels device := by
      rw [hlevels]
      exact List.mem_singleton_self device
    exact not_mem_of_mem_levels hmem
  · intro h
    rw [levels_of_not_mem h]
    rfl

end

end DeviceHub.Topic
