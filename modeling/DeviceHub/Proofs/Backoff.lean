import Mathlib
import DeviceHub.Config.Check
import DeviceHub.Connection.Basic

/-!
# The delays of a backoff in closed form

A backoff keeps the next delay only, which is doubled and cut off at every failure.

* `Backoff.failed`, `Backoff.delay`   the backoff after as many failures, and the delay after the next;
* `Backoff.nanos_delay`   this delay is the initial one doubled as often, cut off once at the end;
* `Backoff.Call`, `Backoff.after`, `Backoff.streak`   any calls of a backoff, and how many of them are
                          failures since the last success;
* `Backoff.next_after`    the delay after any calls;
* `Config.ticks_delay`    the delays of a configuration in milliseconds;
* `Config.delay_bounds`   delays of a configuration without faults.
-/

namespace DeviceHub

/-! ## Durations -/

namespace Duration

theorem nanos_min (a b : Duration) : (a.min b).nanos = Min.min a.nanos b.nanos := by
  unfold Duration.min
  split <;> omega

theorem nanos_double (d : Duration) : d.double.nanos = Min.min (2 * d.nanos) longest := rfl

/-- The longest span is longer than every number of milliseconds. -/
theorem nanos_ofMillis (ms : UInt64) : (ofMillis ms).nanos = ms.toNat * 1000000 := by
  show Min.min (ms.toNat * 1000000) longest = _
  have hms := ms.toNat_lt
  unfold longest
  omega

theorem ticks_of_nanos {d : Duration} {ms : Nat} (h : d.nanos = ms * 1000000) : d.ticks = ms := by
  unfold ticks
  rw [h]
  omega

/-- A timer that is set for a span ends when the span is over. -/
theorem add_ticks_le_iff (d : Duration) (since ms : Nat) :
    since + d.ticks ≤ ms ↔ since * 1000000 + d.nanos ≤ ms * 1000000 := by
  unfold ticks
  omega

end Duration

namespace Backoff

variable (b : Bounds)

/-! ## Failures without a success between them -/

/-- the backoff after as many failures -/
def failed (k : Nat) : Backoff := (fun f => f.next.2)^[k] (.new b)

/-- the delay after the failure that comes after `k` others -/
def delay (k : Nat) : Duration := (failed b k).next.1

theorem failed_zero : failed b 0 = .new b := rfl

theorem failed_succ (k : Nat) : failed b (k + 1) = (failed b k).next.2 :=
  Function.iterate_succ_apply' _ k (Backoff.new b)

theorem failed_bounds (k : Nat) : (failed b k).bounds = b := by
  induction k with
  | zero => rfl
  | succ k ih =>
    rw [failed_succ]
    exact ih

theorem reset_failed (k : Nat) : (failed b k).reset = .new b := by
  unfold reset
  rw [failed_bounds]
  rfl

theorem nanos_next (f : Backoff) :
    f.next.1.nanos = min f.upcoming.nanos f.bounds.max.nanos :=
  Duration.nanos_min _ _

/-- Cutting off at every doubling is cutting off once. -/
theorem nanos_delay (k : Nat) :
    (delay b k).nanos = min (b.initial.nanos * 2 ^ k) b.max.nanos := by
  induction k with
  | zero =>
    show (failed b 0).next.1.nanos = _
    rw [nanos_next, failed_zero, pow_zero, Nat.mul_one]
    rfl
  | succ k ih =>
    have hlongest : b.max.nanos ≤ Duration.longest := b.max.nanos_le
    have hupcoming : (failed b (k + 1)).upcoming = (delay b k).double.min b.max := by
      rw [failed_succ]
      show (delay b k).double.min (failed b k).bounds.max = _
      rw [failed_bounds]
    show (failed b (k + 1)).next.1.nanos = _
    rw [nanos_next, failed_bounds, hupcoming, Duration.nanos_min, Duration.nanos_double, ih,
      pow_succ, ← Nat.mul_assoc]
    omega

/-! ## Any calls -/

/-- what a backoff is told: a failure, or a success -/
inductive Call
  | next
  | reset
deriving DecidableEq

def call (f : Backoff) : Call → Backoff
  | .next => f.next.2
  | .reset => f.reset

def after (cs : List Call) : Backoff := cs.foldl call (.new b)

/-- how many of the calls are failures since the last success -/
def streak (cs : List Call) : Nat := (cs.reverse.takeWhile (· = .next)).length

theorem streak_next (cs : List Call) : streak (cs ++ [.next]) = streak cs + 1 := by
  unfold streak
  rw [List.reverse_append]
  rfl

theorem streak_reset (cs : List Call) : streak (cs ++ [.reset]) = 0 := by
  unfold streak
  rw [List.reverse_append]
  rfl

/-- What was before the last success does not count. -/
theorem after_eq_failed (cs : List Call) : after b cs = failed b (streak cs) := by
  induction cs using List.reverseRecOn with
  | nil => rfl
  | append_singleton cs c ih =>
    have hcall : after b (cs ++ [c]) = (after b cs).call c := List.foldl_concat ..
    rw [hcall, ih]
    cases c with
    | next =>
      rw [streak_next, failed_succ]
      rfl
    | reset =>
      rw [streak_reset]
      exact reset_failed b _

theorem next_after (cs : List Call) : (after b cs).next.1 = delay b (streak cs) := by
  rw [after_eq_failed]
  rfl

end Backoff

/-! ## Configurations -/

namespace Config

theorem ticks_delay (r : Config.Reconnect) (k : Nat) :
    (Backoff.delay r.bounds k).ticks = min (r.initialMs.toNat * 2 ^ k) r.maxMs.toNat := by
  refine Duration.ticks_of_nanos ?_
  rw [Backoff.nanos_delay]
  show min ((Duration.ofMillis r.initialMs).nanos * 2 ^ k) (Duration.ofMillis r.maxMs).nanos = _
  rw [Duration.nanos_ofMillis, Duration.nanos_ofMillis, Nat.mul_right_comm, Nat.mul_min_mul_right]

theorem reconnect_of_fault?_eq_none {c : Config} (hc : c.fault? = none) :
    1 ≤ c.reconnect.initialMs.toNat ∧ c.reconnect.initialMs.toNat ≤ c.reconnect.maxMs.toNat := by
  unfold fault? at hc
  split at hc
  · cases hc
  · split_ifs at hc with hid hinitial hmax
    have hpos : c.reconnect.initialMs.toNat ≠ 0 := fun h => hinitial (UInt64.toNat_inj.mp h)
    have hle : c.reconnect.initialMs.toNat ≤ c.reconnect.maxMs.toNat :=
      UInt64.le_iff_toNat_le.mp (UInt64.not_lt.mp hmax)
    omega

theorem delay_bounds {c : Config} (hc : c.fault? = none) (k : Nat) :
    c.reconnect.initialMs.toNat ≤ (Backoff.delay c.reconnect.bounds k).ticks ∧
    (Backoff.delay c.reconnect.bounds k).ticks ≤ c.reconnect.maxMs.toNat ∧
    1 ≤ (Backoff.delay c.reconnect.bounds k).ticks := by
  obtain ⟨hpos, hle⟩ := reconnect_of_fault?_eq_none hc
  have hpow : c.reconnect.initialMs.toNat ≤ c.reconnect.initialMs.toNat * 2 ^ k :=
    Nat.le_mul_of_pos_right _ (Nat.two_pow_pos k)
  rw [ticks_delay]
  omega

end Config

end DeviceHub
