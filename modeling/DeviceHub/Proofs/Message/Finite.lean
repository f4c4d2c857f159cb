import DeviceHub.Message.Report
import DeviceHub.Proofs.Json.Codec

/-!
# What devices report is finite

* `Telemetry.finite`   every metric of decoded telemetry has a finite value;
* `Report.finite`      the signal strength of a decoded state is finite.
-/

namespace DeviceHub.Message

open Json

theorem Metric.finite : Metric.record.codec.Gives fun m => m.value.isFinite = true := by
  -- a metric without a value has the value zero
  refine Record.gives (by decide) fun f hf => ?_
  simp only [Metric.record, List.mem_cons, List.not_mem_nil, or_false] at hf
  rcases hf with rfl | rfl | rfl
  · exact Field.preserves_of_set _ _ _ _ _ fun _ _ h => h
  · exact Field.preserves_omitted _ Codec.gives_float _ _ _ fun _ _ h _ => h
  · exact Field.preserves_of_set _ _ _ _ _ fun _ _ h => h

theorem Telemetry.finite :
    Telemetry.record.codec.Gives fun t => ∀ m ∈ t.metrics, m.value.isFinite = true := by
  refine Record.gives nofun fun f hf => ?_
  simp only [Telemetry.record, List.mem_cons, List.not_mem_nil, or_false] at hf
  rcases hf with rfl | rfl | rfl
  · exact Field.preserves_of_set _ _ _ _ _ fun _ _ h => h
  · exact Field.preserves_omitted _ Metric.finite.list _ _ _ fun _ _ h _ => h
  · exact Field.preserves_of_set _ _ _ _ _ fun _ _ h => h

theorem Link.finite : Link.record.codec.Gives fun l => ∀ x ∈ l.rssi, x.isFinite = true := by
  refine Record.gives nofun fun f hf => ?_
  simp only [Link.record, List.mem_cons, List.not_mem_nil, or_false] at hf
  rcases hf with rfl | rfl | rfl
  · exact Field.preserves_of_set _ _ _ _ _ fun _ _ h => h
  · exact Field.preserves_omitted _ Codec.gives_float.option _ _ _ fun _ _ h _ => h
  · exact Field.preserves_of_set _ _ _ _ _ fun _ _ h => h

theorem Report.finite :
    Report.record.codec.Gives fun r => ∀ l ∈ r.link, ∀ x ∈ l.rssi, x.isFinite = true := by
  refine Record.gives nofun fun f hf => ?_
  simp only [Report.record, List.mem_cons, List.not_mem_nil, or_false] at hf
  rcases hf with rfl | rfl | rfl | rfl | rfl | rfl
  · exact Field.preserves_of_set _ _ _ _ _ fun _ _ h => h
  · exact Field.preserves_omitted _ Link.finite.option _ _ _ fun _ _ h _ => h
  · exact Field.preserves_of_set _ _ _ _ _ fun _ _ h => h
  · exact Field.preserves_of_set _ _ _ _ _ fun _ _ h => h
  · exact Field.preserves_of_set _ _ _ _ _ fun _ _ h => h
  · exact Field.preserves_of_set _ _ _ _ _ fun _ _ h => h

end DeviceHub.Message
