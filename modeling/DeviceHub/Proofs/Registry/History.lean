import DeviceHub.Proofs.Registry

/-!
# What the registry keeps of its calls

Four calls change the registry, and of each entry every column follows a rule of its own: the first
value counts, the greatest, the last, or the last one that was there.

* `Registry.Call`, `Registry.after`   a call of the registry, and the registry after calls;
* `Call.Changes`, `Call.get?_act`     what a call makes of the entry of its device, and of no other;
* `Entry.Sums`                        an entry sums up calls;
* `Entry.Sums.first`, `Entry.Sums.next`   the first call of a device, and a further one;
* `Registry.Keeps.after`              runs;
* `Registry.entries_sum_up_calls`     every entry sums up the calls of its device.
-/

namespace DeviceHub.Registry

/-! ## Calls -/

/-- what is told of a device -/
inductive Tidings
  | touched (source : String)
  | reported (s : Status)
  | measured (metrics : List (String × Float))
  | left (reason : String)

/-- a call of the registry at a current time: what it tells of a device, and when that was -/
structure Call where
  now : Int64
  device : String
  ts : Int64
  tidings : Tidings

namespace Call

def act (c : Call) (r : Registry) : Registry :=
  match c.tidings with
  | .touched source => r.touch c.now c.device c.ts source
  | .reported s => r.report c.now c.device s c.ts
  | .measured metrics => r.telemetry c.now c.device c.ts metrics
  | .left reason => r.offline c.now c.device c.ts reason

/-- The time of a call.  The current time stands for one that is not positive. -/
def time (c : Call) : Int64 := if 0 < c.ts then c.ts else c.now

def source (c : Call) : String :=
  match c.tidings with
  | .touched source => source
  | .reported _ => "state"
  | .measured _ => "telemetry"
  | .left reason => reason

def status? (c : Call) : Option String :=
  match c.tidings with
  | .reported s => some s.status
  | .left _ => some "offline"
  | _ => none

def report? (c : Call) : Option Status :=
  match c.tidings with
  | .reported s => some s
  | _ => none

def metrics? (c : Call) : Option (List (String × Float)) :=
  match c.tidings with
  | .measured (m :: ms) => some (m :: ms)
  | _ => none

end Call

def after (r : Registry) (cs : List Call) : Registry := cs.foldl (fun r c => c.act r) r

theorem after_concat (r : Registry) (cs : List Call) (c : Call) :
    r.after (cs ++ [c]) = c.act (r.after cs) := by
  unfold after
  rw [List.foldl_append]
  rfl

/-! ## What a call changes -/

/-- A snapshot shows a call: its time, and of each metric the last value. -/
structure Snapshot.Shows (s : Snapshot) (c : Call) : Prop where
  ts : s.ts = c.time
  sorted : Sorted.IsSorted s.metrics
  values : ∃ metrics, c.metrics? = some metrics ∧
    ∀ key, Sorted.find? key s.metrics = Sorted.find? key metrics.reverse

namespace Call

/-- What a call makes of an entry, when its time and its source are in it already. -/
structure Changes (c : Call) (e e' : Entry) : Prop where
  device : e'.device = e.device
  firstSeen : e'.firstSeen = e.firstSeen
  lastSeen : e'.lastSeen = e.lastSeen
  lastSource : e'.lastSource = e.lastSource
  status : e'.status = c.status?.or e.status
  link : e'.link = (c.report?.bind (·.link)).or e.link
  ip : e'.ip = (c.report?.bind (·.ip)).or e.ip
  firmware : e'.firmware = (c.report?.bind (·.firmware)).or e.firmware
  uptime : e'.uptime = (c.report?.bind (·.uptime)).or e.uptime
  lastReport : e'.lastReport = (c.report?.map fun _ => c.time).or e.lastReport
  lastTelemetry : (c.metrics? = none ∧ e'.lastTelemetry = e.lastTelemetry) ∨
    ∃ s, e'.lastTelemetry = some s ∧ s.Shows c

/-- Every call is an update with such a change. -/
theorem exists_change (c : Call) : ∃ change : Entry → Entry,
    (∀ r, c.act r = r.update c.device c.time c.source change) ∧ ∀ e, c.Changes e (change e) := by
  obtain ⟨now, device, ts, tidings⟩ := c
  cases tidings with
  | touched source =>
    refine ⟨id, fun _ => rfl, fun e => ?_⟩
    exact ⟨rfl, rfl, rfl, rfl, rfl, rfl, rfl, rfl, rfl, rfl, Or.inl ⟨rfl, rfl⟩⟩
  | left reason =>
    refine ⟨fun e => { e with status := some "offline" }, fun _ => rfl, fun e => ?_⟩
    exact ⟨rfl, rfl, rfl, rfl, rfl, rfl, rfl, rfl, rfl, rfl, Or.inl ⟨rfl, rfl⟩⟩
  | reported s =>
    refine ⟨fun e => { e with
      status := some s.status
      link := s.link <|> e.link
      ip := s.ip <|> e.ip
      firmware := s.firmware <|> e.firmware
      uptime := s.uptime <|> e.uptime
      lastReport := some (effective now ts) }, fun _ => rfl, fun e => ?_⟩
    exact ⟨rfl, rfl, rfl, rfl, rfl, Option.orElse_eq_or .., Option.orElse_eq_or ..,
      Option.orElse_eq_or .., Option.orElse_eq_or .., rfl, Or.inl ⟨rfl, rfl⟩⟩
  | measured metrics =>
    cases metrics with
    | nil =>
      refine ⟨id, fun _ => rfl, fun e => ?_⟩
      exact ⟨rfl, rfl, rfl, rfl, rfl, rfl, rfl, rfl, rfl, rfl, Or.inl ⟨rfl, rfl⟩⟩
    | cons m ms =>
      refine ⟨fun e => { e with lastTelemetry := some ⟨effective now ts, Sorted.ofList (m :: ms)⟩ },
        fun _ => rfl, fun e => ?_⟩
      refine ⟨rfl, rfl, rfl, rfl, rfl, rfl, rfl, rfl, rfl, rfl, Or.inr ⟨_, rfl, rfl, ?_, m :: ms, rfl, ?_⟩⟩
      · exact Sorted.isSorted_ofList _
      · exact Sorted.find?_ofList_reverse _

section
variable (c : Call) (r : Registry)

theorem get?_act_of_ne {device : String} (h : c.device ≠ device ∨ device = "") :
    (c.act r).get? device = r.get? device := by
  obtain ⟨change, hact, -⟩ := c.exists_change
  rw [hact]
  unfold update get?
  split
  · rfl
  · rename_i hdevice
    rw [Sorted.find?_insert, if_neg]
    rintro rfl
    exact h.elim (fun hne => hne rfl) hdevice

/-- A call changes the entry of its device, in which its time and its source are by then. -/
theorem get?_act (h : c.device ≠ "") : ∃ e, (c.act r).get? c.device = some e ∧
    c.Changes (r.seen c.device c.time c.source) e := by
  obtain ⟨change, hact, hchange⟩ := c.exists_change
  refine ⟨_, ?_, hchange _⟩
  rw [hact]
  unfold update get?
  rw [if_neg h, Sorted.find?_insert, if_pos rfl]

theorem get?_act_congr {r' : Registry} {device : String} (h : r.get? device = r'.get? device) :
    (c.act r).get? device = (c.act r').get? device := by
  by_cases hc : c.device ≠ device ∨ device = ""
  · rw [c.get?_act_of_ne r hc, c.get?_act_of_ne r' hc, h]
  · obtain ⟨hdevice, hne⟩ := not_or.mp hc
    obtain rfl := not_not.mp hdevice
    obtain ⟨change, hact, -⟩ := c.exists_change
    have hseen : r.seen c.device c.time c.source = r'.seen c.device c.time c.source := by
      unfold seen
      rw [show Sorted.find? c.device r = Sorted.find? c.device r' from h]
    rw [hact, hact]
    unfold update get?
    rw [if_neg hne, if_neg hne, Sorted.find?_insert, Sorted.find?_insert, if_pos rfl, if_pos rfl,
      hseen]

theorem isKeyed_act (h : r.IsKeyed) : (c.act r).IsKeyed := by
  obtain ⟨change, hact, hchange⟩ := c.exists_change
  rw [hact]
  exact h.update _ _ _ fun e => (hchange e).device

end

end Call

/-! ## Entries and calls -/

/-- In a column that calls may leave out stands the last value that one of them gave. -/
structure Entry.Recalls (e : Entry) (cs : List Call) : Prop where
  status : e.status = (cs.filterMap Call.status?).getLast?
  link : e.link = (cs.filterMap fun c => c.report?.bind (·.link)).getLast?
  ip : e.ip = (cs.filterMap fun c => c.report?.bind (·.ip)).getLast?
  firmware : e.firmware = (cs.filterMap fun c => c.report?.bind (·.firmware)).getLast?
  uptime : e.uptime = (cs.filterMap fun c => c.report?.bind (·.uptime)).getLast?
  lastReport : e.lastReport = (cs.filterMap fun c => c.report?.map fun _ => c.time).getLast?
  lastTelemetry :
    Option.Rel Snapshot.Shows e.lastTelemetry (cs.filter fun c => c.metrics?.isSome).getLast?

/-- An entry sums up calls: it also has the time of the first of them, the greatest of their times, and
the source of the last. -/
structure Entry.Sums (e : Entry) (cs : List Call) : Prop extends e.Recalls cs where
  firstSeen : (cs.map Call.time).head? = some e.firstSeen
  lastSeen : e.lastSeen ∈ cs.map Call.time
  latest : ∀ c ∈ cs, c.time ≤ e.lastSeen
  lastSource : (cs.map Call.source).getLast? = some e.lastSource

theorem getLast?_filterMap_concat {α β : Type} (f : α → Option β) (xs : List α) (x : α) :
    ((xs ++ [x]).filterMap f).getLast? = (f x).or (xs.filterMap f).getLast? := by
  rw [List.filterMap_append, List.getLast?_append]
  congr 1
  cases h : f x with
  | none => rw [List.filterMap_cons_none h]; rfl
  | some b => rw [List.filterMap_cons_some h]; rfl

namespace Entry

variable {e e' : Entry} {cs : List Call} {c : Call}

theorem Recalls.next (h : e.Recalls cs) (hc : c.Changes e e') : e'.Recalls (cs ++ [c]) where
  status := by rw [getLast?_filterMap_concat, ← h.status, hc.status]
  link := by rw [getLast?_filterMap_concat, ← h.link, hc.link]
  ip := by rw [getLast?_filterMap_concat, ← h.ip, hc.ip]
  firmware := by rw [getLast?_filterMap_concat, ← h.firmware, hc.firmware]
  uptime := by rw [getLast?_filterMap_concat, ← h.uptime, hc.uptime]
  lastReport := by rw [getLast?_filterMap_concat, ← h.lastReport, hc.lastReport]
  lastTelemetry := by
    rw [List.filter_append, List.getLast?_append]
    rcases hc.lastTelemetry with ⟨hnone, hsame⟩ | ⟨s, hs, hshows⟩
    · rw [List.filter_cons_of_neg (by rw [hnone]; decide), hsame]
      exact h.lastTelemetry
    · obtain ⟨metrics, hmetrics, -⟩ := hshows.values
      rw [List.filter_cons_of_pos (by rw [hmetrics]; rfl), hs]
      exact .some hshows

theorem max_bounds (a b : Int64) : (max a b = a ∨ max a b = b) ∧ a ≤ max a b ∧ b ≤ max a b := by
  have hmax : max a b = if a ≤ b then b else a := rfl
  rw [hmax]
  split
  · rename_i hle
    exact ⟨Or.inr rfl, hle, Int64.le_refl b⟩
  · rename_i hlt
    exact ⟨Or.inl rfl, Int64.le_refl a, (Int64.le_total a b).resolve_left hlt⟩

namespace Sums

theorem first {r : Registry} (hnone : r.get? c.device = none)
    (hc : c.Changes (r.seen c.device c.time c.source) e) : e.Sums [c] := by
  unfold seen at hc
  rw [show Sorted.find? c.device r = none from hnone] at hc
  -- nothing but the time and the source is known before the call
  have hrecalls : e.Recalls ([] ++ [c]) :=
    Recalls.next ⟨rfl, rfl, rfl, rfl, rfl, rfl, .none⟩ hc
  refine ⟨hrecalls, ?_, ?_, fun c' hmem => ?_, ?_⟩
  · rw [hc.firstSeen]
    rfl
  · rw [hc.lastSeen]
    exact List.mem_singleton_self _
  · rw [hc.lastSeen, List.mem_singleton.mp hmem]
    exact Int64.le_refl _
  · rw [hc.lastSource]
    rfl

theorem next {r : Registry} (h : e.Sums cs) (hget : r.get? c.device = some e)
    (hc : c.Changes (r.seen c.device c.time c.source) e') : e'.Sums (cs ++ [c]) := by
  unfold seen at hc
  rw [show Sorted.find? c.device r = some e from hget] at hc
  have hlast : e'.lastSeen = max e.lastSeen c.time := hc.lastSeen
  obtain ⟨heither, hold, hnew⟩ := max_bounds e.lastSeen c.time
  have hseen : Recalls { e with lastSeen := max e.lastSeen c.time, lastSource := c.source } cs :=
    ⟨h.status, h.link, h.ip, h.firmware, h.uptime, h.lastReport, h.lastTelemetry⟩
  refine ⟨hseen.next hc, ?_, ?_, fun c' hmem => ?_, ?_⟩
  · rw [List.map_append, List.head?_append, h.firstSeen, hc.firstSeen]
    rfl
  · rw [hlast, List.map_append, List.mem_append]
    rcases heither with hmax | hmax
    · rw [hmax]
      exact Or.inl h.lastSeen
    · exact Or.inr (List.mem_singleton.mpr hmax)
  · rw [hlast]
    rcases List.mem_append.mp hmem with hmem | hmem
    · exact Int64.le_trans (h.latest c' hmem) hold
    · rwa [List.mem_singleton.mp hmem]
  · rw [List.map_append, List.getLast?_append, hc.lastSource]
    rfl

section
variable (h : e.Sums cs)
include h

theorem firstSeen_le : e.firstSeen ≤ e.lastSeen := by
  obtain ⟨c, hc, htime⟩ := List.mem_map.mp (List.mem_of_head? h.firstSeen)
  exact htime ▸ h.latest c hc

theorem lastReport_le : ∀ t ∈ e.lastReport, t ≤ e.lastSeen := by
  intro t ht
  rw [h.lastReport] at ht
  obtain ⟨c, hc, hreport⟩ := List.mem_filterMap.mp (List.mem_of_getLast? ht)
  obtain ⟨-, -, rfl⟩ := Option.map_eq_some_iff.mp hreport
  exact h.latest c hc

theorem lastTelemetry_le : ∀ s ∈ e.lastTelemetry, s.ts ≤ e.lastSeen := by
  intro s hs
  have hrel := h.lastTelemetry
  rw [Option.mem_def.mp hs] at hrel
  cases hcall : (cs.filter fun c => c.metrics?.isSome).getLast? with
  | none => rw [hcall] at hrel; cases hrel
  | some c =>
    rw [hcall] at hrel
    obtain ⟨hshows⟩ := hrel
    rw [hshows.ts]
    exact h.latest c (List.mem_of_mem_filter (List.mem_of_getLast? hcall))

end

end Sums

end Entry

/-! ## Runs -/

def callsOf (device : String) (cs : List Call) : List Call := cs.filter fun c => c.device = device

/-- The registry keeps an entry of a device that sums up calls, or none when there are no calls. -/
inductive Keeps (r : Registry) (device : String) (cs : List Call) : Prop
  | none (hget : r.get? device = none) (hcs : cs = [])
  | some (e : Entry) (hget : r.get? device = some e) (hsums : e.Sums cs)

theorem callsOf_concat (device : String) (cs : List Call) (c : Call) :
    callsOf device (cs ++ [c]) = callsOf device cs ++ if c.device = device then [c] else [] := by
  unfold callsOf
  rw [List.filter_append]
  congr 1
  by_cases h : c.device = device <;> simp [h]

namespace Keeps

variable {r : Registry} {device : String} {cs : List Call}

theorem next (h : Keeps r device cs) (hdevice : device ≠ "") {c : Call} (hc : c.device = device) :
    Keeps (c.act r) device (cs ++ [c]) := by
  subst hc
  obtain ⟨e', hget', hchanges⟩ := c.get?_act r hdevice
  cases h with
  | none hget hcs =>
    subst hcs
    exact .some e' hget' (.first hget hchanges)
  | some e hget hsums => exact .some e' hget' (hsums.next hget hchanges)

theorem of_get?_eq {r' : Registry} (h : Keeps r device cs) (hget : r'.get? device = r.get? device) :
    Keeps r' device cs := by
  cases h with
  | none hnone hcs => exact .none (hget.trans hnone) hcs
  | some e hsome hsums => exact .some e (hget.trans hsome) hsums

theorem after (hdevice : device ≠ "") (cs : List Call) :
    Keeps (Registry.after [] cs) device (callsOf device cs) := by
  induction cs using List.reverseRecOn with
  | nil => exact .none rfl rfl
  | append_singleton cs c ih =>
    rw [after_concat, callsOf_concat]
    by_cases hc : c.device = device
    · rw [if_pos hc]
      exact ih.next hdevice hc
    · rw [if_neg hc, List.append_nil]
      exact ih.of_get?_eq (c.get?_act_of_ne _ (Or.inl hc))

theorem get?_isSome_iff (h : Keeps r device cs) : (r.get? device).isSome ↔ cs ≠ [] := by
  cases h with
  | none hget hcs => simp [hget, hcs]
  | some e hget hsums =>
    refine iff_of_true (by rw [hget]; rfl) ?_
    rintro rfl
    cases hsums.firstSeen

theorem sums (h : Keeps r device cs) {e : Entry} (he : r.get? device = .some e) : e.Sums cs := by
  cases h with
  | none hget => cases he.symm.trans hget
  | some e' hget hsums =>
    cases he.symm.trans hget
    exact hsums

end Keeps

theorem isKeyed_after (cs : List Call) : (after [] cs).IsKeyed := by
  induction cs using List.reverseRecOn with
  | nil => exact isKeyed_nil
  | append_singleton cs c ih =>
    rw [after_concat]
    exact c.isKeyed_act _ ih

theorem get?_after_callsOf (device : String) (cs : List Call) :
    (after [] (callsOf device cs)).get? device = (after [] cs).get? device := by
  induction cs using List.reverseRecOn with
  | nil => rfl
  | append_singleton cs c ih =>
    rw [after_concat, callsOf_concat]
    by_cases hc : c.device = device
    · rw [if_pos hc, after_concat]
      exact c.get?_act_congr _ ih
    · rw [if_neg hc, List.append_nil, c.get?_act_of_ne _ (Or.inl hc), ih]

theorem IsKeyed.pairwise_list {r : Registry} (h : IsKeyed r) :
    r.list.Pairwise fun e e' => e.device < e'.device := by
  unfold list
  rw [List.pairwise_map]
  refine h.sorted.imp_of_mem fun {a b} ha hb hlt => ?_
  rw [(h.named a ha).1, (h.named b hb).1]
  exact hlt

/-- After any calls of a registry that had no entries:

* an entry sums up the calls of its device: the time of the first call, the greatest time, the source of
  the last call, and in every other column the last value that a call gave, if any did;
* so no time in an entry is later than the time when the device was seen last;
* what is known of a device is what the calls of this device alone would have left;
* the list has one entry of every device that a call named, in the strict order of their names, and
  shows it as the look-up does. -/
theorem entries_sum_up_calls (cs : List Call) :
    let r := after [] cs
    (∀ e ∈ r.list, e.Sums (callsOf e.device cs) ∧ e.firstSeen ≤ e.lastSeen ∧
      (∀ t ∈ e.lastReport, t ≤ e.lastSeen) ∧ ∀ s ∈ e.lastTelemetry, s.ts ≤ e.lastSeen) ∧
    (∀ device, r.get? device = (after [] (callsOf device cs)).get? device) ∧
    (∀ device, ∀ e, r.get? device = some e ↔ e ∈ r.list ∧ e.device = device) ∧
    (∀ device, device ∈ r.list.map (·.device) ↔ device ≠ "" ∧ ∃ c ∈ cs, c.device = device) ∧
    r.list.Pairwise fun e e' => e.device < e'.device := by
  intro r
  have hkeyed : r.IsKeyed := isKeyed_after cs
  refine ⟨fun e he => ?_, fun device => (get?_after_callsOf device cs).symm,
    fun device e => hkeyed.get?_eq_some_iff, fun device => ?_, hkeyed.pairwise_list⟩
  · have hkeeps := Keeps.after (hkeyed.device_ne_empty he) cs
    have hsums := hkeeps.sums (hkeyed.get?_eq_some_iff.mpr ⟨he, rfl⟩)
    exact ⟨hsums, hsums.firstSeen_le, hsums.lastReport_le, hsums.lastTelemetry_le⟩
  · have hlisted : device ∈ r.list.map (·.device) ↔ (r.get? device).isSome := by
      rw [Option.isSome_iff_exists, List.mem_map]
      exact exists_congr fun e => hkeyed.get?_eq_some_iff.symm
    rw [hlisted]
    by_cases hdevice : device = ""
    · refine iff_of_false (fun hsome => ?_) fun h => h.1 hdevice
      obtain ⟨e, he⟩ := Option.isSome_iff_exists.mp hsome
      obtain ⟨hmem, rfl⟩ := hkeyed.get?_eq_some_iff.mp he
      exact hkeyed.device_ne_empty hmem hdevice
    · rw [(Keeps.after hdevice cs).get?_isSome_iff, and_iff_right hdevice]
      unfold callsOf
      rw [Ne, List.filter_eq_nil_iff]
      simp

/-- Two reports of a device, the later one of an earlier time and without a link, values of it at the
time of the call, and calls that do not concern it. -/
theorem entries_sum_up_calls_out_of_order :
    let online : Call := ⟨9, "a", 5, .reported { status := "online", link := some "wifi" }⟩
    let values : Call := ⟨9, "a", 0, .measured [("t", 1), ("u", 2), ("t", 3)]⟩
    let degraded : Call := ⟨9, "a", 3, .reported { status := "degraded" }⟩
    let cs := [online, ⟨9, "b", 20, .left "lwt"⟩, values, ⟨9, "", 30, .touched "event"⟩, degraded]
    ∃ e ∈ (after [] cs).list, e.device = "a" ∧ e.firstSeen = 5 ∧ 9 ≤ e.lastSeen ∧
      e.lastSource = "state" ∧ e.status = some "degraded" ∧ e.link = some "wifi" ∧
      e.lastReport = some 3 ∧
      ∃ s, e.lastTelemetry = some s ∧ s.ts = 9 ∧ Sorted.find? "t" s.metrics = some 3 := by
  intro online values degraded cs
  obtain ⟨hsums, -, -, hlisted, -⟩ := entries_sum_up_calls cs
  have hnamed : "a" ≠ "" ∧ ∃ c ∈ cs, c.device = "a" := ⟨by decide, online, List.mem_cons_self, rfl⟩
  obtain ⟨e, he, hdevice⟩ := List.mem_map.mp ((hlisted "a").mpr hnamed)
  obtain ⟨hown, -⟩ := hsums e he
  rw [hdevice, show callsOf "a" cs = [online, values, degraded] from rfl] at hown
  have htelemetry := hown.lastTelemetry
  cases hsnapshot : e.lastTelemetry with
  | none =>
    rw [hsnapshot] at htelemetry
    cases htelemetry
  | some s =>
    rw [hsnapshot] at htelemetry
    obtain ⟨hshows⟩ := htelemetry
    obtain ⟨metrics, hmetrics, hvalues⟩ := hshows.values
    cases hmetrics
    have hseen : values.time ≤ e.lastSeen := hown.latest values (by simp)
    exact ⟨e, he, hdevice, (Option.some.inj hown.firstSeen).symm, hseen,
      (Option.some.inj hown.lastSource).symm, hown.status, hown.link, hown.lastReport, s,
      hsnapshot, hshows.ts, hvalues "t"⟩

end DeviceHub.Registry
