import DeviceHub.Proofs.Sorted
import DeviceHub.Registry

/-!
# Calls of the registry

* `Registry.update_update`   a call that is made twice in a row has the effect of one;
* `touch_touch`, `report_report`, `telemetry_telemetry`   so have the calls that carry a time;
* `Registry.IsFinite`        all measured values that are kept are finite;
* `IsFinite.update`, `IsFinite.telemetry`   which calls with finite values do not change;
* `Registry.IsKeyed`         every entry is kept under the name of its device, which no call changes;
* `IsKeyed.get?_eq_some_iff` so the entries of the list are those that their names find.
-/

namespace DeviceHub.Registry

/-! ## A call made twice -/

theorem effective_of_pos {ts : Int64} (h : 0 < ts) (now : Int64) : effective now ts = ts :=
  if_pos h

theorem max_max_right (a b : Int64) : max (max a b) b = max a b := by
  have hmax (a b : Int64) : max a b = if a ≤ b then b else a := rfl
  by_cases h : a ≤ b
  · have hb : max a b = b := (hmax a b).trans (if_pos h)
    rw [hb, hmax, if_pos (Int64.le_refl b)]
  · have ha : max a b = a := (hmax a b).trans (if_neg h)
    rw [ha, ha]

section
variable (r : Registry) (device : String) (ts : Int64) (source : String)

theorem seen_lastSource : (r.seen device ts source).lastSource = source := by
  unfold seen
  cases Sorted.find? device r <;> rfl

theorem max_seen_lastSeen :
    max (r.seen device ts source).lastSeen ts = (r.seen device ts source).lastSeen := by
  unfold seen
  cases Sorted.find? device r with
  | none =>
    show (if ts ≤ ts then ts else ts) = ts
    rw [if_pos (Int64.le_refl ts)]
  | some e => exact max_max_right e.lastSeen ts

theorem update_update {change : Entry → Entry}
    (hseen : ∀ e, (change e).lastSeen = e.lastSeen ∧ (change e).lastSource = e.lastSource)
    (hchange : ∀ e, change (change e) = change e) :
    (r.update device ts source change).update device ts source change =
      r.update device ts source change := by
  unfold update
  by_cases hdevice : device = ""
  · rw [if_pos hdevice, if_pos hdevice]
  rw [if_neg hdevice, if_neg hdevice]
  generalize he : r.seen device ts source = e
  -- the second call finds what the first one left, seen at the same time through the same source
  have hagain : seen (Sorted.insert device (change e) r) device ts source = change e := by
    have hlast : max (change e).lastSeen ts = (change e).lastSeen := by
      rw [(hseen e).1, ← he, max_seen_lastSeen]
    have hsource : source = (change e).lastSource := by
      rw [(hseen e).2, ← he, seen_lastSource]
    unfold seen
    rw [Sorted.find?_insert, if_pos rfl]
    simp only
    rw [hlast]
    exact congrArg (fun s => { change e with lastSource := s }) hsource
  rw [hagain, hchange, Sorted.insert_insert]

end

section
variable (r : Registry) (now now' : Int64) (device : String) {ts : Int64} (hts : 0 < ts)
include hts

theorem touch_touch (source : String) :
    (r.touch now device ts source).touch now' device ts source = r.touch now device ts source := by
  unfold touch
  rw [effective_of_pos hts, effective_of_pos hts]
  exact r.update_update device ts source (fun _ => ⟨rfl, rfl⟩) fun _ => rfl

theorem report_report (s : Status) :
    (r.report now device s ts).report now' device s ts = r.report now device s ts := by
  have hkept {α : Type} (o o' : Option α) : (o <|> (o <|> o')) = (o <|> o') := by
    cases o <;> rfl
  unfold report
  rw [effective_of_pos hts, effective_of_pos hts]
  refine r.update_update device ts "state" (fun _ => ⟨rfl, rfl⟩) fun e => ?_
  simp only [hkept]

theorem telemetry_telemetry (metrics : List (String × Float)) :
    (r.telemetry now device ts metrics).telemetry now' device ts metrics =
      r.telemetry now device ts metrics := by
  unfold telemetry
  rw [effective_of_pos hts, effective_of_pos hts]
  cases metrics with
  | nil => exact r.update_update device ts "telemetry" (fun _ => ⟨rfl, rfl⟩) fun _ => rfl
  | cons m ms => exact r.update_update device ts "telemetry" (fun _ => ⟨rfl, rfl⟩) fun _ => rfl

end

/-! ## Finite values -/

def Entry.IsFinite (e : Entry) : Prop :=
  ∀ s ∈ e.lastTelemetry, ∀ m ∈ s.metrics, m.2.isFinite = true

def IsFinite (r : Registry) : Prop := ∀ e ∈ r, e.2.IsFinite

theorem isFinite_nil : IsFinite [] := fun _ he => absurd he List.not_mem_nil

namespace IsFinite

variable {r : Registry}

theorem seen (h : IsFinite r) (device : String) (ts : Int64) (source : String) :
    (Registry.seen r device ts source).IsFinite := by
  unfold Registry.seen
  cases hfind : Sorted.find? device r with
  | none => exact nofun
  | some e => exact h (device, e) (Sorted.mem_of_find? hfind)

theorem update (h : IsFinite r) (device : String) (ts : Int64) (source : String)
    {change : Entry → Entry} (hchange : ∀ e, e.IsFinite → (change e).IsFinite) :
    IsFinite (Registry.update r device ts source change) := by
  unfold Registry.update
  split
  · exact h
  · intro e he
    rcases Sorted.mem_insert he with rfl | he
    · exact hchange _ (h.seen device ts source)
    · exact h e he

theorem telemetry (h : IsFinite r) (now : Int64) (device : String) (ts : Int64)
    {metrics : List (String × Float)} (hmetrics : ∀ m ∈ metrics, m.2.isFinite = true) :
    IsFinite (Registry.telemetry r now device ts metrics) := by
  unfold Registry.telemetry
  refine h.update device _ _ fun e he => ?_
  split
  · exact he
  · rintro s ⟨⟩ m hm
    exact hmetrics m (Sorted.mem_ofList hm)

theorem touch (h : IsFinite r) (now : Int64) (device : String) (ts : Int64) (source : String) :
    IsFinite (Registry.touch r now device ts source) := h.update device _ source fun _ he => he

theorem report (h : IsFinite r) (now : Int64) (device : String) (s : Status) (ts : Int64) :
    IsFinite (Registry.report r now device s ts) := by
  unfold Registry.report
  exact h.update device _ _ fun _ he => he

theorem offline (h : IsFinite r) (now : Int64) (device : String) (ts : Int64) (reason : String) :
    IsFinite (Registry.offline r now device ts reason) := h.update device _ reason fun _ he => he

end IsFinite

/-! ## Names -/

/-- Entries are kept in the order of the names of their devices, of which none is empty. -/
structure IsKeyed (r : Registry) : Prop where
  sorted : Sorted.IsSorted r
  named : ∀ e ∈ r, e.2.device = e.1 ∧ e.1 ≠ ""

theorem isKeyed_nil : IsKeyed [] := ⟨Sorted.isSorted_nil, nofun⟩

namespace IsKeyed

variable {r : Registry}

theorem get?_eq_some_iff (h : IsKeyed r) {device : String} {e : Entry} :
    get? r device = some e ↔ e ∈ list r ∧ e.device = device := by
  unfold get? list
  rw [← Sorted.mem_iff_find? h.sorted, List.mem_map]
  constructor
  · intro he
    exact ⟨⟨(device, e), he, rfl⟩, (h.named _ he).1⟩
  · rintro ⟨⟨⟨key, e'⟩, he, rfl⟩, rfl⟩
    rw [(h.named _ he).1]
    exact he

theorem device_ne_empty (h : IsKeyed r) {e : Entry} (he : e ∈ list r) : e.device ≠ "" := by
  obtain ⟨entry, hentry, rfl⟩ := List.mem_map.mp he
  rw [(h.named entry hentry).1]
  exact (h.named entry hentry).2

theorem seen_device (h : IsKeyed r) (device : String) (ts : Int64) (source : String) :
    (Registry.seen r device ts source).device = device := by
  unfold Registry.seen
  cases hfind : Sorted.find? device r with
  | none => rfl
  | some e => exact (h.named _ (Sorted.mem_of_find? hfind)).1

theorem update (h : IsKeyed r) (device : String) (ts : Int64) (source : String)
    {change : Entry → Entry} (hchange : ∀ e, (change e).device = e.device) :
    IsKeyed (Registry.update r device ts source change) := by
  unfold Registry.update
  split
  · exact h
  · rename_i hdevice
    refine ⟨Sorted.isSorted_insert _ _ h.sorted, fun e he => ?_⟩
    rcases Sorted.mem_insert he with rfl | he
    · exact ⟨(hchange _).trans (h.seen_device device ts source), hdevice⟩
    · exact h.named e he

theorem touch (h : IsKeyed r) (now : Int64) (device : String) (ts : Int64) (source : String) :
    IsKeyed (Registry.touch r now device ts source) := h.update device _ source fun _ => rfl

theorem report (h : IsKeyed r) (now : Int64) (device : String) (s : Status) (ts : Int64) :
    IsKeyed (Registry.report r now device s ts) := by
  unfold Registry.report
  exact h.update device _ _ fun _ => rfl

theorem telemetry (h : IsKeyed r) (now : Int64) (device : String) (ts : Int64)
    (metrics : List (String × Float)) : IsKeyed (Registry.telemetry r now device ts metrics) := by
  unfold Registry.telemetry
  refine h.update device _ _ fun e => ?_
  split <;> rfl

theorem offline (h : IsKeyed r) (now : Int64) (device : String) (ts : Int64) (reason : String) :
    IsKeyed (Registry.offline r now device ts reason) := h.update device _ reason fun _ => rfl

end IsKeyed

end DeviceHub.Registry
