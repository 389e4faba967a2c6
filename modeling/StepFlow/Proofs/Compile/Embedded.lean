import StepFlow.Proofs.Compile.Kept
import StepFlow.Proofs.Compile.StepText
import StepFlow.Proofs.Flow.RoundTrip
import StepFlow.Proofs.Flow.Streamed
import StepFlow.Proofs.Json.Visible

/-!
What is known of a step, in its module. It stands between the two parts of the template around its
mark, on one line, whatever marks, quotes or line breaks the texts of the step hold. What a compiled
program knows of its steps comes from a flow whose outputs are bounded, and so it is read from
between these texts as it was.
-/
namespace StepFlow.Compile
open StepFlow.Flow Json

section
variable {info : StepMeta}

theorem info_readsBack {room : Nat} (bounded : OutputBounded info.output)
    (fits : info.encode.depth ≤ room) :
    ReadsBack (StepMeta.decoder.scan room) StepMeta.encode info := by
  obtain ⟨id, name, policy, inputs, output⟩ := info
  simp only [StepMeta.encode, Json.depth] at fits
  obtain ⟨room, rfl⟩ : ∃ less, room = less + 1 := ⟨room - 1, by omega⟩
  have each := depthMembers_le.mp (Nat.le_of_succ_le_succ fits)
  have inputsFit : (Node.encodeInputs inputs).depth ≤ room :=
    each ("inputs", Node.encodeInputs inputs) (by simp [Node.encodeInputs])
  have outputFits : ∀ o ∈ output, o.encode.depth ≤ room := by
    rintro o rfl
    exact each ("output", o.encode) (by simp [Json.optional])
  have last : Fills (StepMeta.record.member StepMeta.Partial.slot room)
      ⟨some id, some name, some policy, some inputs, none⟩
      (Json.optional "output" OutputArg.encode output)
      ⟨some id, some name, some policy, some inputs, output.map some⟩ :=
    .optional rfl rfl (fun o _ => ⟨output_exact o, by simp [OutputArg.encode]⟩)
      (fun o given => output_readsBack (bounded o given) (outputFits o given))
      (by cases output <;> rfl)
  have fills : Fills (StepMeta.record.member StepMeta.Partial.slot room) {}
      ([("id", .str id), ("name", .str name), ("errorPolicy", policy.encode),
        ("inputs", Node.encodeInputs inputs)] ++ Json.optional "output" OutputArg.encode output)
      ⟨some id, some name, some policy, some inputs, output.map some⟩ :=
    .field rfl rfl (string_readsBack room id) (.field rfl rfl (string_readsBack room name)
      (.field rfl rfl (policy_readsBack policy) (.field rfl rfl (inputs_readsBack inputsFit) last)))
  refine record_readsBack rfl fills ?_
  simp only [StepMeta.Partial.finish, Record.require, join_map_some]
  rfl

end

section
variable {nodes : List Node}

theorem flatten_bounded (bounded : NodesBounded nodes) : ∀ node ∈ flatten nodes, node.Bounded := by
  induction nodes using flatten.induct with
  | case1 => simp [flatten]
  | case2 node nodes inner rest =>
    have body : NodesBounded node.body := by
      cases node with
      | code | component => trivial
      | ifThen | elseIf | otherwise => exact bounded.1
      | forEach => exact bounded.1.2
    rw [flatten, List.forall_mem_cons, List.forall_mem_append]
    exact ⟨bounded.1, inner body, rest bounded.2⟩

theorem codeSteps_bounded (bounded : NodesBounded nodes) {s : CodeStep}
    (member : s ∈ codeSteps nodes) : OutputBounded s.output := by
  obtain ⟨node, inside, same⟩ := List.mem_filterMap.mp member
  have own := flatten_bounded bounded node inside
  cases node <;> cases same
  exact own

theorem compiled_bounded {groupRoot : String} {program : Program} (bounded : NodesBounded nodes)
    (compiled : compile groupRoot nodes = .ok program) {entry : String × InlineCode}
    (member : entry ∈ program.manifest.inlineCode) : OutputBounded entry.2.info.output := by
  obtain ⟨s, step, rfl⟩ := compile_entry compiled member
  exact codeSteps_bounded bounded step

end

/-- What is known of a step stands between two texts that are the same for all steps, and on one
line. What a compiled program knows of a step, if it nests no deeper than a reader goes, is read
from between these texts as it was. -/
theorem step_modules_embed :
    (∀ info : StepMeta,
      renderStepModule info = moduleFront ++ info.encode.compact ++ moduleBack ∧
      '\n' ∉ info.encode.compact.toList ∧ '\r' ∉ info.encode.compact.toList) ∧
    ∀ (text groupRoot : String) (nodes : List Node) (program : Program),
      Flow.read text = .ok nodes → compile groupRoot nodes = .ok program →
      ∀ entry ∈ program.manifest.inlineCode, entry.2.info.encode.depth ≤ maxDepth →
      ∀ between, renderStepModule entry.2.info = moduleFront ++ between ++ moduleBack →
        decodeText StepMeta.decoder between = .ok entry.2.info := by
  refine ⟨fun info => ⟨renderStepModule_split info, ?_⟩, ?_⟩
  · rw [compact, String.toList_ofList]
    exact visible_no_break (print_visible info.encode)
  · intro text groupRoot nodes program parsed compiled entry member fits between found
    have same : between = entry.2.info.encode.compact := by
      rw [renderStepModule_split, ← String.toList_inj] at found
      simp only [String.toList_append] at found
      exact String.toList_inj.mp
        (List.append_cancel_left (List.append_cancel_right found)).symm
    rw [same]
    have bounded := compiled_bounded (read_bounded parsed) compiled member
    exact readsBack_text (info_readsBack bounded fits)

def markedStep : CodeStep :=
  ⟨"a", "__META__ \"__CODE__\"\n", "A", .ignore,
    [⟨"k", .literal, .string, "__META__", some "__CODE__"⟩],
    some ⟨"x", .list (.object [⟨"f\r", .number⟩])⟩⟩

theorem markedStep_compiles : ∃ program, compile "" [.code markedStep] = .ok program ∧
    ("a", CodeStep.entry markedStep) ∈ program.manifest.inlineCode := by
  refine ⟨_, compile_ok_iff.mpr ⟨_, _, compileList_ok_iff.mpr
    ⟨_, .code ?valid (.nil _ _), rfl⟩, rfl⟩, List.mem_singleton.mpr rfl⟩
  refine ⟨by decide, ?_, ?_⟩
  · intro i member
    cases List.mem_singleton.mp member
    exact ⟨_, rfl⟩
  · intro o given
    cases given
    decide

theorem markedStep_embeds :
    renderStepModule (CodeStep.entry markedStep).info =
      moduleFront ++ (CodeStep.entry markedStep).info.encode.compact ++ moduleBack ∧
    decodeText StepMeta.decoder (CodeStep.entry markedStep).info.encode.compact =
      .ok (CodeStep.entry markedStep).info := by
  obtain ⟨embeds, readBack⟩ := step_modules_embed
  obtain ⟨program, compiled, listed⟩ := markedStep_compiles
  have bounded : OutputBounded markedStep.output := by
    intro o given
    cases given
    simp [Shape.Bounded, ValueType.isNested]
  have parsed : Flow.read (write [.code markedStep]) = .ok [.code markedStep] :=
    read_write ⟨bounded, trivial⟩ (by decide)
  have rendered := (embeds (CodeStep.entry markedStep).info).1
  exact ⟨rendered, readBack _ "" _ program parsed compiled _ listed (by decide) _ rendered⟩

end StepFlow.Compile
