import DeviceHub.Message.Command
import DeviceHub.Proofs.Param

/-!
# Commands and acknowledgements are read back

* `Command.rebuilds`, `Ack.rebuilds`   the fields of a message bring it about from the empty one;
* `come_back_from_the_wire`            both are decoded from the octets of their text as what they
                                       were, exactly when they are nested at most 127 deep.
-/

namespace DeviceHub.Message

open Json

namespace Command

theorem rebuilds {c : Command} (h : Param.Exact (.map c.params)) :
    Record.Rebuilds c record.base record.fields c := by
  obtain ⟨v, id, device, ts, kind, params⟩ := c
  refine .cons (u := ⟨v, "", "", 0, "", []⟩)
    (Field.Restores.required (Field.restores_plain (Codec.restores_int64 v) _)) ?_
  refine .cons (u := ⟨v, id, "", 0, "", []⟩)
    (Field.Restores.required (Field.restores_plain (Codec.restores_text id) _)) ?_
  refine .cons (u := ⟨v, id, device, 0, "", []⟩)
    (Field.Restores.required (Field.restores_plain (Codec.restores_text device) _)) ?_
  refine .cons (u := ⟨v, id, device, ts, "", []⟩)
    (Field.Restores.required (Field.restores_plain (Codec.restores_int64 ts) _)) ?_
  refine .cons (u := ⟨v, id, device, ts, kind, []⟩)
    (Field.Restores.required (Field.restores_plain (Codec.restores_text kind) _)) ?_
  -- parameters that are left out are those of the empty command
  refine .cons (Field.restores_omitted (fun _ => Params.restores h) fun hempty => ?_) (.nil _)
  rw [List.isEmpty_iff.mp hempty]

theorem restores {c : Command} (h : Param.Exact (.map c.params)) : record.codec.Restores c := by
  refine (rebuilds h).restores (by decide) fun f hf hmissing => ?_
  simp only [record, List.mem_cons, List.not_mem_nil, or_false] at hf
  rcases hf with rfl | rfl | rfl | rfl | rfl | rfl
  · rfl
  · rfl
  · rfl
  · rfl
  · rfl
  · cases hmissing

end Command

namespace Ack

theorem rebuilds {a : Ack} (h : ∀ m ∈ a.data, Param.Exact (.map m)) :
    Record.Rebuilds a record.base record.fields a := by
  have htext (o : Option String) (ho : o.isNone = false) : (Codec.option .text).Restores o := by
    cases o with
    | none => cases ho
    | some s => exact (Codec.restores_text s).some nofun
  have hdata (o : Option Params) (hexact : ∀ m ∈ o, Param.Exact (.map m)) (ho : o.isNone = false) :
      (Codec.option Params.codec).Restores o := by
    cases o with
    | none => cases ho
    | some m => exact (Params.restores (hexact m rfl)).some nofun
  obtain ⟨v, id, device, ts, ok, code, msg, data⟩ := a
  refine .cons (u := ⟨v, "", "", 0, false, none, none, none⟩)
    (Field.restores_plain (Codec.restores_int64 v) _) ?_
  refine .cons (u := ⟨v, id, "", 0, false, none, none, none⟩)
    (Field.restores_plain (Codec.restores_text id) _) ?_
  refine .cons (u := ⟨v, id, device, 0, false, none, none, none⟩)
    (Field.restores_plain (Codec.restores_text device) _) ?_
  refine .cons (u := ⟨v, id, device, ts, false, none, none, none⟩)
    (Field.restores_plain (Codec.restores_int64 ts) _) ?_
  refine .cons (u := ⟨v, id, device, ts, ok, none, none, none⟩)
    (Field.restores_plain (Codec.restores_bool ok) _) ?_
  refine .cons (u := ⟨v, id, device, ts, ok, code, none, none⟩)
    (Field.restores_omitted (htext code) fun hnone => ?_) ?_
  · rw [Option.isNone_iff_eq_none.mp hnone]
  refine .cons (u := ⟨v, id, device, ts, ok, code, msg, none⟩)
    (Field.restores_omitted (htext msg) fun hnone => ?_) ?_
  · rw [Option.isNone_iff_eq_none.mp hnone]
  refine .cons (Field.restores_omitted (hdata data h) fun hnone => ?_) (.nil _)
  rw [Option.isNone_iff_eq_none.mp hnone]

theorem restores {a : Ack} (h : ∀ m ∈ a.data, Param.Exact (.map m)) : record.codec.Restores a := by
  refine (rebuilds h).restores (by decide) fun f hf hmissing => ?_
  simp only [record, List.mem_cons, List.not_mem_nil, or_false] at hf
  rcases hf with rfl | rfl | rfl | rfl | rfl | rfl | rfl | rfl
  all_goals cases hmissing

end Ack

/-- Commands and acknowledgements without doubles come back from the octets of their text as what they
were, exactly when their documents are nested at most 127 deep. -/
theorem come_back_from_the_wire :
    (∀ c : Command, Param.Exact (.map c.params) →
      (Command.record.codec.decode (Text.Utf8.encode (Command.record.codec.encode c)) = .ok c ↔
        (Command.record.codec.write c).depth ≤ maxDepth)) ∧
    (∀ a : Ack, (∀ m ∈ a.data, Param.Exact (.map m)) →
      (Ack.record.codec.decode (Text.Utf8.encode (Ack.record.codec.encode a)) = .ok a ↔
        (Ack.record.codec.write a).depth ≤ maxDepth)) :=
  ⟨fun _ h => (Command.restores h).decode_encode, fun _ h => (Ack.restores h).decode_encode⟩

theorem come_back_from_the_wire_nested :
    let params : Params := [
      ("", .null), ("\x22\\\n\x00", .text "\x08\x1f\x7f\u2028é"),
      ("deep", .list [.map [], .list [], .int (-0x8000000000000000), .bool false]),
      ("high", .map [("a", .int 0x7fffffffffffffff), ("b", .int 0)])]
    let c : Command := ⟨1, "cmd-1", "dev-1", 1700000000000, "set", params⟩
    let a : Ack := ⟨1, "cmd-1", "dev-1", -1, true, none, some "", some []⟩
    (Param.Exact (.map c.params) ∧ (Command.record.codec.write c).depth ≤ maxDepth ∧
      Command.record.codec.decode (Text.Utf8.encode (Command.record.codec.encode c)) = .ok c) ∧
    ((∀ m ∈ a.data, Param.Exact (.map m)) ∧ (Ack.record.codec.write a).depth ≤ maxDepth ∧
      Ack.record.codec.decode (Text.Utf8.encode (Ack.record.codec.encode a)) = .ok a) := by
  intro params c a
  have hsorted : Sorted.IsSorted c.params := by
    unfold Sorted.IsSorted
    decide
  have hdeep : Param.Exact (.list [.map [], .list [], .int (-0x8000000000000000), .bool false]) :=
    .list (List.forall_mem_cons.mpr ⟨.map .nil nofun, List.forall_mem_cons.mpr ⟨.list nofun,
      List.forall_mem_cons.mpr ⟨.int _, List.forall_mem_singleton.mpr (.bool _)⟩⟩⟩)
  have hhigh : Param.Exact (.map [("a", .int 0x7fffffffffffffff), ("b", .int 0)]) :=
    .map (by unfold Sorted.IsSorted; decide)
      (List.forall_mem_cons.mpr ⟨.int _, List.forall_mem_singleton.mpr (.int _)⟩)
  have hparams : Param.Exact (.map c.params) :=
    .map hsorted (List.forall_mem_cons.mpr ⟨.null, List.forall_mem_cons.mpr ⟨.text _,
      List.forall_mem_cons.mpr ⟨hdeep, List.forall_mem_singleton.mpr hhigh⟩⟩⟩)
  have hdata : ∀ m ∈ a.data, Param.Exact (.map m) := by
    rintro m ⟨⟩
    exact .map .nil nofun
  have hdepth : (Command.record.codec.write c).depth ≤ maxDepth := by decide
  have hdepth' : (Ack.record.codec.write a).depth ≤ maxDepth := by decide
  exact ⟨⟨hparams, hdepth, (come_back_from_the_wire.1 c hparams).mpr hdepth⟩,
    ⟨hdata, hdepth', (come_back_from_the_wire.2 a hdata).mpr hdepth'⟩⟩

end DeviceHub.Message
