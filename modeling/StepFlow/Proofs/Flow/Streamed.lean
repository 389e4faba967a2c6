import StepFlow.Proofs.Flow.Encoded
import StepFlow.Proofs.Json.Streamed

/-!
Inputs and outputs are read from a text as they were printed into it, if there is room for as many
levels as they have. The members of an output that tell its shape are kept as values before the
shape is looked at.
-/
namespace StepFlow.Flow
open Json

section
variable {room : Nat}

theorem source_readsBack (s : Source) : ReadsBack (Source.decoder.scan room) Source.encode s :=
  variant_readsBack rfl (source_restored s)

theorem valueType_readsBack (t : ValueType) :
    ReadsBack (ValueType.decoder.scan room) ValueType.encode t :=
  variant_readsBack rfl (valueType_restored t)

theorem policy_readsBack (p : ErrorPolicy) :
    ReadsBack (ErrorPolicy.decoder.scan room) ErrorPolicy.encode p :=
  buffered_readsBack trivial (Nat.zero_le room) (policy_restored p)

theorem input_readsBack {a : InputArg} (fits : a.encode.depth ≤ room) :
    ReadsBack (InputArg.decoder.scan room) InputArg.encode a := by
  obtain ⟨room, rfl⟩ : ∃ less, room = less + 1 :=
    Nat.exists_eq_add_of_le' (Nat.le_trans (Nat.le_add_left 1 _) fits)
  have name : Fills (InputArg.record.member InputArg.Partial.slot room)
      ⟨some a.key, some a.source, some a.type, some a.value, none⟩
      (Json.optional "name" .str a.name)
      ⟨some a.key, some a.source, some a.type, some a.value, a.name.map some⟩ :=
    .optional rfl rfl (fun _ _ => ⟨trivial, by simp⟩) (fun text _ => string_readsBack room text)
      (by cases a.name <;> rfl)
  refine record_readsBack rfl (.field rfl rfl (string_readsBack room a.key)
    (.field rfl rfl (source_readsBack a.source) (.field rfl rfl (valueType_readsBack a.type)
      (.field rfl rfl (string_readsBack room a.value) name)))) ?_
  simp only [InputArg.Partial.finish, Record.require, Option.getD_some, join_map_some]
  rfl

theorem inputs_readsBack {inputs : List InputArg} (fits : (Node.encodeInputs inputs).depth ≤ room) :
    ReadsBack ((Decoder.list InputArg.decoder).scan room) Node.encodeInputs inputs := by
  simp only [Node.encodeInputs, Json.depth] at fits
  obtain ⟨room, rfl⟩ : ∃ less, room = less + 1 := ⟨room - 1, by omega⟩
  have inner := depthItems_le.mp (Nat.le_of_succ_le_succ fits)
  exact list_readsBack (fun a _ => input_exact a) fun a member =>
    input_readsBack (inner _ (List.mem_map_of_mem member))

theorem output_readsBack {o : OutputArg} (bounded : o.shape.Bounded)
    (fits : o.encode.depth ≤ room) :
    ReadsBack (OutputArg.decoder.scan room) OutputArg.encode o := by
  obtain ⟨key, shape⟩ := o
  intro rest _
  simp only [OutputArg.encode, Json.depth, depthMembers] at fits
  obtain ⟨room, rfl⟩ : ∃ less, room = less + 1 := ⟨room - 1, by omega⟩
  have own : Fills (OutputArg.record.flatMember OutputArg.slot room) (none, [])
      [("key", .str key)] (some key, []) :=
    .cons (fun _ follows => own_scanned rfl (once_scanned "key" (string_readsBack _ key) follows))
      (.nil _)
  have finished : OutputArg.finish (some key) shape.toRaw.members = .ok ⟨key, shape⟩ := by
    simp only [OutputArg.finish, raw_restored, filled_finish, check_toRaw bounded, bind,
      Except.bind]
    rfl
  exact flat_scanned own (raw_others shape.toRaw) (exactMembers_iff.mpr (raw_exact shape.toRaw))
    (by omega) finished rest

end

end StepFlow.Flow
