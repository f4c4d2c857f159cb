import Mathlib
import DeviceHub.Topic

/-!
# Topics and their kinds

* `Topic.EndsIn`              the last level of a topic;
* `Topic.Kind.ofTopic_eq_iff` a topic has a kind when it ends in the level of the kind, and no topic ends
                              in the levels of two kinds.
-/

namespace DeviceHub.Topic

/-- Whether a topic ends in a level, or in several ones. -/
def EndsIn (topic level : String) : Prop := '/' :: level.toList <:+ topic.toList

namespace Kind

theorem endings_apart : ∀ e ∈ endings, ∀ e' ∈ endings,
    '/' :: e.2.toList <:+ '/' :: e'.2.toList → e = e' := by decide

theorem endings_named : ∀ e ∈ endings, ∀ e' ∈ endings, e.1 = e'.1 → e = e' := by decide

theorem other_not_ending : ∀ e ∈ endings, e.1 ≠ other := by decide

theorem endings_of_endsIn {topic : String} {e e' : Kind × String} (he : e ∈ endings)
    (he' : e' ∈ endings) (h : EndsIn topic e.2) (h' : EndsIn topic e'.2) : e = e' := by
  rcases List.suffix_or_suffix_of_suffix h h' with hsuffix | hsuffix
  · exact endings_apart e he e' he' hsuffix
  · exact (endings_apart e' he' e he hsuffix).symm

/-- The kind of a topic is that of the level it ends in. -/
theorem ofTopic_eq_iff {topic level : String} {k : Kind} (hk : (k, level) ∈ endings) :
    ofTopic topic = k ↔ EndsIn topic level := by
  unfold ofTopic
  cases hfind : endings.find? fun e => ('/' :: e.2.toList).isSuffixOf topic.toList with
  | none =>
    have hnone := List.find?_eq_none.mp hfind (k, level) hk
    refine ⟨fun h => absurd h.symm (other_not_ending (k, level) hk), fun h => ?_⟩
    exact absurd (List.isSuffixOf_iff_suffix.mpr h) hnone
  | some e =>
    have he : e ∈ endings := List.mem_of_find?_eq_some hfind
    have hfound := List.find?_some hfind
    have hends : EndsIn topic e.2 := List.isSuffixOf_iff_suffix.mp hfound
    constructor
    · intro h
      rwa [endings_named e he (k, level) hk h] at hends
    · intro h
      rw [endings_of_endsIn he hk hends h]

end Kind

end DeviceHub.Topic
