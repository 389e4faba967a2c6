import StepFlow.Proofs.Compile.Resolution
import StepFlow.Proofs.Flow.Shape
import StepFlow.Proofs.Json.Checked

/-!
Outputs and their shapes as written. An output is written as a key and a raw shape, which may have
parts that its type has no use for; what is meant by it is checked afterwards. Of the parts only
those count that are reached from child to child through lists, and there only the object at the
end: a field of it that has parts of its own is what an output is refused for.
-/
namespace StepFlow.Flow
open Json
open Compile (bind_eq_ok)

abbrev RawOutput := String × RawShape

namespace RawOutput

def decoder : Decoder RawOutput :=
  OutputArg.record.flatDecoder none OutputArg.slot fun key ms => do
    return (key.getD "", (← RawShape.decodeMembers {} ms).finish)

def check (written : RawOutput) : Decoding OutputArg :=
  match written.2.check with
  | .ok shape => .ok ⟨written.1, shape⟩
  | .error nested => .error (.rejected nested.message)

end RawOutput

/-- From child to child through lists a shape ends in an object with these fields. -/
inductive RawShape.EndsIn : RawShape → List OutputField → Prop where
  | object {children : Option (List OutputField)} {child : Option RawShape} :
      EndsIn (.mk .object children child) (children.getD [])
  | list {children : Option (List OutputField)} {child : RawShape} {fields : List OutputField}
      (inner : EndsIn child fields) : EndsIn (.mk .list children (some child)) fields

/-- The first field with parts of its own in the object that a shape ends in. -/
def RawShape.Nests (raw : RawShape) (nested : NestedField) : Prop :=
  ∃ fields before after, raw.EndsIn fields ∧ fields = before ++ ⟨nested.key, nested.type⟩ :: after ∧
    nested.type.isNested = true ∧ ∀ f ∈ before, f.type.isNested = false

section
variable {fields : List OutputField} {nested : NestedField} {type : ValueType}
  {children : Option (List OutputField)} {child : RawShape} {part : Option RawShape}

theorem firstNested_some : firstNested fields = some nested ↔
    ∃ before after, fields = before ++ ⟨nested.key, nested.type⟩ :: after ∧
      nested.type.isNested = true ∧ ∀ f ∈ before, f.type.isNested = false := by
  simp only [firstNested, Option.map_eq_some_iff, List.find?_eq_some_iff_append]
  constructor
  · rintro ⟨f, ⟨is, before, after, rfl, none⟩, rfl⟩
    exact ⟨before, after, rfl, is, by simpa using none⟩
  · rintro ⟨before, after, rfl, is, none⟩
    exact ⟨_, ⟨is, before, after, rfl, by simpa using none⟩, rfl⟩

theorem nests_object : (RawShape.mk .object children part).Nests nested ↔
    firstNested (children.getD []) = some nested := by
  rw [firstNested_some]
  constructor
  · rintro ⟨fields, before, after, ⟨⟩, first⟩
    exact ⟨before, after, first⟩
  · rintro ⟨before, after, first⟩
    exact ⟨_, before, after, .object, first⟩

theorem nests_list :
    (RawShape.mk .list children (some child)).Nests nested ↔ child.Nests nested := by
  constructor
  · rintro ⟨fields, before, after, ⟨⟩ | ⟨inner⟩, first⟩
    exact ⟨fields, before, after, inner, first⟩
  · rintro ⟨fields, before, after, inner, first⟩
    exact ⟨fields, before, after, .list inner, first⟩

theorem check_error_iff {raw : RawShape} : raw.check = .error nested ↔ raw.Nests nested := by
  fun_induction RawShape.check raw with
  | case1 children part fields field found =>
    rw [nests_object, found]
    simp
  | case2 children part fields none =>
    rw [nests_object, none]
    simp
  | case3 children =>
    refine iff_of_false (by simp) ?_
    rintro ⟨fields, before, after, ⟨⟩, first⟩
  | case4 children child element checked ih =>
    rw [nests_list, ← ih, checked]
    simp
  | case5 children child inner checked ih =>
    rw [nests_list, ← ih, checked]
  | case6 type children part notObject _ notListOf =>
    refine iff_of_false (by simp) ?_
    rintro ⟨fields, before, after, ends, first⟩
    cases ends with
    | object => exact notObject rfl
    | list => exact notListOf _ rfl rfl

theorem decoder_checked : OutputArg.decoder = RawOutput.decoder.checked RawOutput.check := by
  have finished : OutputArg.finish = fun key ms =>
      (do return (key.getD "", (← RawShape.decodeMembers {} ms).finish)) >>= RawOutput.check := by
    funext key ms
    simp only [OutputArg.finish, RawOutput.check, bind_assoc, pure_bind]
    refine bind_congr fun raw => ?_
    cases raw.finish.check <;> rfl
  rw [OutputArg.decoder, finished, flatDecoder_checked]
  rfl

theorem rawOutput_check_ok {written : RawOutput} {o : OutputArg} :
    RawOutput.check written = .ok o ↔ written.1 = o.key ∧ written.2.check = .ok o.shape := by
  obtain ⟨key, shape⟩ := o
  rw [RawOutput.check]
  cases written.2.check <;> simp

theorem rawOutput_check_error {written : RawOutput} {e : DecodeError} :
    RawOutput.check written = .error e ↔
      ∃ nested, written.2.Nests nested ∧ e = .rejected nested.message := by
  simp only [← check_error_iff]
  rw [RawOutput.check]
  cases written.2.check <;> simp [eq_comm]

theorem rawOutput_bounded {written : RawOutput} {o : OutputArg}
    (checked : RawOutput.check written = .ok o) : o.shape.Bounded :=
  check_bounded (rawOutput_check_ok.mp checked).2

/-- What comes out of an output is bounded, what is refused nests a field, and what is bounded is
what its raw form is checked to. -/
theorem output_shapes (j : Json) (text : String) (o : OutputArg) :
    (OutputArg.decoder.ofJson j = .ok o ∨ decodeText OutputArg.decoder text = .ok o →
      o.shape.Bounded) ∧
    (∀ written, RawOutput.decoder.ofJson j = .ok written → ∀ e,
      OutputArg.decoder.ofJson j = .error e ↔
        ∃ nested, written.2.Nests nested ∧ e = .rejected nested.message) ∧
    (∀ written, decodeText RawOutput.decoder text = .ok written →
      ((∃ e, decodeText OutputArg.decoder text = .error e) ↔ ∃ nested, written.2.Nests nested) ∧
        ∀ nested, written.2.Nests nested → ∃ left,
          decodeText OutputArg.decoder text = .error (.data (.rejected nested.message) left)) ∧
    (RawOutput.check (o.key, o.shape.toRaw) = .ok o ↔ o.shape.Bounded) := by
  rw [decoder_checked]
  refine ⟨?_, fun written decoded e => ?_, fun written decoded => ?_, ?_⟩
  · rintro (decoded | decoded)
    · obtain ⟨written, _, checked⟩ := bind_eq_ok.mp decoded
      exact rawOutput_bounded checked
    · obtain ⟨written, _, checked⟩ := checked_text_ok_iff.mp decoded
      exact rawOutput_bounded checked
  · rw [← rawOutput_check_error]
    simp [Decoder.checked, decoded, bind, Except.bind]
  · have refused : ∀ nested, written.2.Nests nested → ∃ left,
        decodeText (RawOutput.decoder.checked RawOutput.check) text =
          .error (.data (.rejected nested.message) left) := fun nested nests =>
      checked_text_error decoded (rawOutput_check_error.mpr ⟨nested, nests, rfl⟩)
    refine ⟨⟨?_, ?_⟩, refused⟩
    · rintro ⟨e, failed⟩
      cases checked : RawOutput.check written with
      | error e' =>
        obtain ⟨nested, nests, _⟩ := rawOutput_check_error.mp checked
        exact ⟨nested, nests⟩
      | ok o' =>
        have passed := checked_text_ok_iff.mpr ⟨written, decoded, checked⟩
        cases passed.symm.trans failed
    · rintro ⟨nested, nests⟩
      obtain ⟨left, failed⟩ := refused nested nests
      exact ⟨_, failed⟩
  · rw [rawOutput_check_ok]
    exact ⟨fun checked => check_bounded checked.2, fun bounded => ⟨rfl, check_toRaw bounded⟩⟩

def gridMembers : List (String × Json) :=
  [("type", .str "List"),
    ("children", .arr [.obj [("key", .str "unused"), ("type", .str "Object")]]),
    ("child", .obj [("type", .str "Object"),
      ("children", .arr [.obj [("key", .str "a")], .obj [("key", .str "b"), ("type", .str "List")],
        .obj [("key", .str "c"), ("type", .str "Object")]])])]

def gridJson : Json := .obj (("key", .str "grid") :: gridMembers)

def gridWritten : RawOutput :=
  ("grid", .mk .list (some [⟨"unused", .object⟩])
    (some (.mk .object (some [⟨"a", .unknown⟩, ⟨"b", .list⟩, ⟨"c", .object⟩]) none)))

theorem gridJson_refused : RawOutput.decoder.ofJson gridJson = .ok gridWritten ∧
    OutputArg.decoder.ofJson gridJson =
      .error (.rejected "object field 'b' must be a scalar type, found List") := by
  have decoded : RawOutput.decoder.ofJson gridJson = .ok gridWritten := by
    have beside : (do return ("grid", (← RawShape.decodeMembers {} gridMembers).finish)) =
        Except.ok (ε := DecodeError) gridWritten := by
      simp only [gridMembers, RawShape.decodeMembers, RawShape.decodeChild, RawShape.decode]
      rfl
    exact beside
  have nests : gridWritten.2.Nests ⟨"b", .list⟩ :=
    ⟨_, [⟨"a", .unknown⟩], [⟨"c", .object⟩], .list .object, rfl, rfl, by decide⟩
  obtain ⟨_, refused, _⟩ := output_shapes gridJson "" (.basic "" .unknown)
  exact ⟨decoded, (refused gridWritten decoded _).mpr ⟨_, nests, by decide⟩⟩

end

end StepFlow.Flow
