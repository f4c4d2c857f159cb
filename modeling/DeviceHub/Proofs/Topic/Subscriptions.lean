import DeviceHub.Proofs.Dispatcher.Effect
import DeviceHub.Proofs.Message.Reading
import DeviceHub.Proofs.Topic.Levels

/-!
# Subscriptions and kinds agree

The broker is asked for topics by filters, and what comes is told apart by how its topic ends.

* `matches_filter_iff`        the topics that the filter of an ending matches;
* `not_endsIn_command`, `Kind.ofTopic_command`   topics of commands end like none of them;
* `Topic.filters`             the filters that are subscribed, each with its kind;
* `subscriptions_agree_with_kinds`   a topic that a filter matches has the kind of the filter, and names
                              the device of its level; topics of commands are not subscribed.
-/

namespace DeviceHub

namespace Topic

/-! ## What filters match -/

theorem forall₂_of_not_mem {fs ls : List String} (h : "+" ∉ fs) :
    List.Forall₂ (fun f level => f = "+" ∨ f = level) fs ls ↔ fs = ls := by
  induction fs generalizing ls with
  | nil => cases ls <;> simp
  | cons f fs ih =>
    obtain ⟨hf, hfs⟩ := List.ne_and_not_mem_of_not_mem_cons h
    cases ls with
    | nil => simp
    | cons l ls => rw [List.forall₂_cons, ih hfs, or_iff_right (Ne.symm hf), List.cons.injEq]

/-- The filter of an ending matches the topics that have any one level before it. -/
theorem matches_filter_iff {ending topic : String} (h : "+" ∉ levels ending) :
    Matches (root ++ "+/" ++ ending) topic ↔
      ∃ level : String, '/' ∉ level.toList ∧ topic = root ++ level ++ "/" ++ ending := by
  have hfilter : levels (root ++ "+/" ++ ending) = "v1" :: "dev" :: "+" :: levels ending :=
    levels_root_level (by decide : '/' ∉ "+".toList) ending
  unfold Matches
  rw [hfilter]
  constructor
  · intro hmatch
    obtain ⟨first, _, hfirst, hmatch₁, hlevels⟩ := List.forall₂_cons_left_iff.mp hmatch
    obtain ⟨second, _, hsecond, hmatch₂, rfl⟩ := List.forall₂_cons_left_iff.mp hmatch₁
    obtain ⟨level, _, -, hmatch₃, rfl⟩ := List.forall₂_cons_left_iff.mp hmatch₂
    obtain rfl := (forall₂_of_not_mem h).mp hmatch₃
    obtain rfl := hfirst.resolve_left (by decide)
    obtain rfl := hsecond.resolve_left (by decide)
    have hmem : level ∈ levels topic := by
      rw [hlevels]
      simp
    have hlevel : '/' ∉ level.toList := not_mem_of_mem_levels hmem
    exact ⟨level, hlevel, levels_injective (hlevels.trans (levels_root_level hlevel ending).symm)⟩
  · rintro ⟨level, hlevel, rfl⟩
    rw [levels_root_level hlevel]
    exact .cons (Or.inr rfl) (.cons (Or.inr rfl) (.cons (Or.inl rfl)
      ((forall₂_of_not_mem h).mpr rfl)))

/-! ## How topics end -/

theorem endsIn_slash (s ending : String) : EndsIn (s ++ "/" ++ ending) ending := by
  refine ⟨s.toList, ?_⟩
  rw [String.toList_append, String.toList_append, List.append_assoc]
  rfl

/-- No topic of a command ends as the topics do that devices publish on. -/
theorem not_endsIn_command (device : String) :
    ∀ e ∈ Kind.endings, ¬ EndsIn (command device) e.2 := by
  have hapart : ∀ e ∈ Kind.endings, ¬ '/' :: e.2.toList <:+ "/cmd".toList ∧
      ¬ "/cmd".toList <:+ '/' :: e.2.toList := by decide
  intro e he hends
  have hcommand : "/cmd".toList <:+ (command device).toList := by
    unfold command
    rw [String.toList_append]
    exact List.suffix_append _ _
  rcases List.suffix_or_suffix_of_suffix hends hcommand with h | h
  · exact (hapart e he).1 h
  · exact (hapart e he).2 h

theorem Kind.ofTopic_command (device : String) : ofTopic (command device) = other := by
  unfold ofTopic
  have hnone : (endings.find? fun e =>
      ('/' :: e.2.toList).isSuffixOf (command device).toList) = none :=
    List.find?_eq_none.mpr fun e he hsuffix =>
      not_endsIn_command device e he (List.isSuffixOf_iff_suffix.mp hsuffix)
  rw [hnone]

/-! ## Subscriptions -/

/-- the filters that are subscribed, each with the kind of the topics that it is for -/
def filters : List (String × Kind) :=
  [("v1/dev/+/telemetry", .telemetry), ("v1/dev/+/event", .event), ("v1/dev/+/state", .state),
    ("v1/dev/+/ack", .ack), ("v1/dev/+/cfg/status", .configStatus), ("v1/dev/+/lwt", .lastWill)]

theorem subscriptions_eq : subscriptions = filters.map (·.1) := by decide

theorem nodup_subscriptions : subscriptions.Nodup := by decide

theorem mem_filters : ∀ e ∈ Kind.endings, (root ++ "+/" ++ e.2, e.1) ∈ filters := by decide

theorem plus_not_mem_levels : ∀ e ∈ Kind.endings, "+" ∉ levels e.2 := by decide

/-- A topic that a subscription matches ends like the topics of its kind, after any one level. -/
theorem exists_level {f topic : String} (hf : f ∈ subscriptions) (hmatch : Matches f topic) :
    ∃ e ∈ Kind.endings, f = root ++ "+/" ++ e.2 ∧
      ∃ level : String, '/' ∉ level.toList ∧ topic = root ++ level ++ "/" ++ e.2 := by
  obtain ⟨e, he, rfl⟩ := List.mem_map.mp hf
  exact ⟨e, he, rfl, (matches_filter_iff (plus_not_mem_levels e he)).mp hmatch⟩

theorem endsIn_of_matches {e : Kind × String} (he : e ∈ Kind.endings) {topic : String}
    (hmatch : Matches (root ++ "+/" ++ e.2) topic) : EndsIn topic e.2 := by
  obtain ⟨level, -, rfl⟩ := (matches_filter_iff (plus_not_mem_levels e he)).mp hmatch
  exact endsIn_slash _ _

/-- A topic is matched by one subscription at most. -/
theorem eq_of_matches {f f' topic : String} (hf : f ∈ subscriptions) (hf' : f' ∈ subscriptions)
    (hmatch : Matches f topic) (hmatch' : Matches f' topic) : f' = f := by
  obtain ⟨e, he, rfl⟩ := List.mem_map.mp hf
  obtain ⟨e', he', rfl⟩ := List.mem_map.mp hf'
  rw [Kind.endings_of_endsIn he he' (endsIn_of_matches he hmatch) (endsIn_of_matches he' hmatch')]

theorem filter_matches {f topic : String} (hf : f ∈ subscriptions) (hmatch : Matches f topic) :
    (subscriptions.filter fun f' => Matches f' topic) = [f] := by
  have hsame : ∀ f' ∈ subscriptions, decide (Matches f' topic) = (f' == f) := by
    intro f' hf'
    rw [Bool.eq_iff_iff, decide_eq_true_iff, beq_iff_eq]
    exact ⟨fun hmatch' => eq_of_matches hf hf' hmatch hmatch', fun heq => heq ▸ hmatch⟩
  rw [List.filter_congr hsame, List.filter_beq, List.count_eq_one_of_mem nodup_subscriptions hf]
  rfl

end Topic

/-- A message on a topic of no kind is counted, and nothing else comes of it. -/
theorem Dispatcher.onMessage_of_other {σ : Type} (s : Sink σ) (now : Int64) (d : Dispatcher σ)
    {topic : String} (h : Topic.Kind.ofTopic topic = .other) (payload : List UInt8) :
    (∃ rejected, (d.onMessage s now topic payload).1 = d.counted rejected) ∧
      (d.onMessage s now topic payload).2.ack? = none := by
  cases hread : Inbound.read topic payload with
  | error why =>
    rw [onMessage_of_error now d hread]
    exact ⟨⟨true, rfl⟩, rfl⟩
  | ok m =>
    have hmeaning := Inbound.read_eq_ok_iff.mp hread
    rw [onMessage_of_ok now d hread, onMessage_snd]
    unfold outcomeOf
    rw [hread]
    cases hmeaning with
    | other => exact ⟨⟨false, rfl⟩, rfl⟩
    | telemetry kind | state kind | event kind | ack kind | configStatus kind | lastWill kind =>
      cases h.symm.trans kind

namespace Topic

/-- A topic that a subscription matches is matched by no other one.  It has the kind of the filter,
whatever stands for the level that the filter leaves open, and it names the device of this level unless
the level is empty.

A topic of a command is matched by no subscription.  It has no kind, so that a message on it changes no
more of the dispatcher than its counters. -/
theorem subscriptions_agree_with_kinds :
    subscriptions = filters.map (·.1) ∧
    (∀ topic, ∀ f ∈ subscriptions, Matches f topic →
      (subscriptions.filter fun f' => Matches f' topic) = [f] ∧
      (f, Kind.ofTopic topic) ∈ filters ∧
      ∃ level ending : String, '/' ∉ level.toList ∧ f = "v1/dev/+/" ++ ending ∧
        topic = "v1/dev/" ++ level ++ "/" ++ ending ∧
        device? topic = if level = "" then none else some level) ∧
    ∀ device, (∀ f ∈ subscriptions, ¬ Matches f (command device)) ∧
      Kind.ofTopic (command device) = .other ∧
      ∀ {σ : Type} (s : Sink σ) now (d : Dispatcher σ) payload,
        (∃ rejected, (d.onMessage s now (command device) payload).1 = d.counted rejected) ∧
        (d.onMessage s now (command device) payload).2.ack? = none := by
  refine ⟨subscriptions_eq, fun topic f hf hmatch => ⟨filter_matches hf hmatch, ?_⟩, fun device => ?_⟩
  · obtain ⟨e, he, rfl, level, hlevel, rfl⟩ := exists_level hf hmatch
    have hkind : Kind.ofTopic (root ++ level ++ "/" ++ e.2) = e.1 :=
      (Kind.ofTopic_eq_iff he).mpr (endsIn_slash _ _)
    refine ⟨hkind ▸ mem_filters e he, level, e.2, hlevel, ?_, rfl, device?_root hlevel e.2⟩
    exact congrArg (· ++ e.2) (by decide)
  · have hkind := Kind.ofTopic_command device
    refine ⟨fun f hf hmatch => ?_, hkind, fun s now d payload =>
      d.onMessage_of_other s now hkind payload⟩
    obtain ⟨e, he, rfl⟩ := List.mem_map.mp hf
    exact not_endsIn_command device e he (endsIn_of_matches he hmatch)

/-- A device may have the name of an ending. -/
theorem subscriptions_agree_with_kinds_telemetry :
    Matches "v1/dev/+/cfg/status" "v1/dev/telemetry/cfg/status" ∧
      Kind.ofTopic "v1/dev/telemetry/cfg/status" = .configStatus ∧
      device? "v1/dev/telemetry/cfg/status" = some "telemetry" := by
  have hmatch : Matches "v1/dev/+/cfg/status" "v1/dev/telemetry/cfg/status" := by decide
  obtain ⟨-, hmatched, -⟩ := subscriptions_agree_with_kinds
  obtain ⟨-, hkind, level, ending, -, hfilter, htopic, hdevice⟩ :=
    hmatched _ _ (by decide) hmatch
  obtain rfl : "cfg/status" = ending := (String.append_right_inj "v1/dev/+/").mp hfilter
  have hbefore : "v1/dev/" ++ "telemetry" ++ "/" = "v1/dev/" ++ level ++ "/" :=
    (String.append_left_inj "cfg/status").mp htopic
  obtain rfl : "telemetry" = level :=
    (String.append_right_inj "v1/dev/").mp ((String.append_left_inj "/").mp hbefore)
  exact ⟨hmatch, by simpa [filters] using hkind, hdevice⟩

end Topic

end DeviceHub
