import Mathlib.Data.List.Basic
import StepFlow.Compile.StepModule
import StepFlow.Proofs.Json.Printed

/-!
The text of the module around a step. What is known of the step stands between the two parts of the
template around its mark, so that the text tells the id of the step.
-/
namespace StepFlow.Compile
open StepFlow.Flow Text Json

def moduleFront : String := "const meta = "

def moduleLines : List String :=
  [";",
    "",
    "module.exports = \x7b",
    "  run: async function (inputs, info) \x7b",
    "    try \x7b",
    "      console.log(JSON.stringify(\x7b startTime: Date.now(), inputs, info, meta \x7d));",
    "      const code = require(\"./code.js\");",
    "      const result = await code(inputs);",
    "      console.log(JSON.stringify(\x7b endTime: Date.now(), result, info, meta \x7d));",
    "      return result;",
    "    \x7d catch (e) \x7b",
    "      console.error(JSON.stringify(\x7b endTime: Date.now(), error: String(e), info, meta \x7d));",
    "      if (info && info.errorPolicy === \"stop\") \x7b",
    "        process.exit(1);",
    "      \x7d",
    "    \x7d",
    "  \x7d,",
    "\x7d;"]

def moduleBack : String := String.ofList (moduleLines.flatMap fun line => line.toList ++ ['\n'])

def cuts (mark : List Char) : Nat → List Char → List (List Char)
  | 0, s => [s]
  | _ + 1, [] => [[]]
  | n + 1, c :: rest =>
    match stripStart? mark (c :: rest) with
    | some after => [] :: cuts mark n after
    | none => (cuts mark n rest).modifyHead (c :: ·)

section
variable {mark fresh s : List Char} {n : Nat}

theorem cuts_ne_nil (mark : List Char) (n : Nat) (s : List Char) : cuts mark n s ≠ [] := by
  induction n generalizing s with
  | zero => simp [cuts]
  | succ n ih =>
    cases s with
    | nil => simp [cuts]
    | cons c rest =>
      rw [cuts]
      split
      · simp
      · simpa [List.modifyHead_eq_nil_iff] using ih rest

theorem intercalate_modifyHead {c : Char} {parts : List (List Char)} (some : parts ≠ []) :
    fresh.intercalate (parts.modifyHead (c :: ·)) = c :: fresh.intercalate parts := by
  cases parts with
  | nil => exact absurd rfl some
  | cons first others => cases others <;> simp [List.intercalate]

/-- Replacing every mark of a text joins its cuts with what is put in. -/
theorem go_cuts : replaceAll.go mark fresh n s = fresh.intercalate (cuts mark n s) := by
  induction n generalizing s with
  | zero => simp [replaceAll.go, cuts, List.intercalate]
  | succ n ih =>
    cases s with
    | nil => simp [replaceAll.go, cuts, List.intercalate]
    | cons c rest =>
      cases found : stripStart? mark (c :: rest) with
      | some after =>
        obtain ⟨first, others, parts⟩ :=
          List.exists_cons_of_ne_nil (cuts_ne_nil mark n after)
        simp only [replaceAll.go, cuts, found, ih, parts]
        simp [List.intercalate]
      | none =>
        simp only [replaceAll.go, cuts, found, ih]
        exact (intercalate_modifyHead (cuts_ne_nil mark n rest)).symm

end

def filledTemplate : List Char :=
  replaceAll codeMark.toList codeFile.toList
    (stepTemplate.flatMap fun line => line.toList ++ ['\n'])

theorem template_cuts : cuts metaMark.toList filledTemplate.length filledTemplate =
    [moduleFront.toList, moduleLines.flatMap fun line => line.toList ++ ['\n']] := by
  decide +kernel

theorem renderStepModule_split (info : StepMeta) :
    renderStepModule info = moduleFront ++ info.encode.compact ++ moduleBack := by
  have text : renderStepModule info =
      String.ofList (replaceAll metaMark.toList info.encode.print filledTemplate) := rfl
  rw [text, replaceAll, go_cuts, template_cuts, moduleBack, compact]
  simp [List.intercalate, String.ofList_append, String.append_assoc]

theorem print_id (info : StepMeta) : ∃ rest, info.encode.print =
    '{' :: quote "id" ++ ':' :: '"' :: (escape info.id.toList ++ '"' :: rest) := by
  refine ⟨printMoreMembers ([("name", .str info.name), ("errorPolicy", info.policy.encode),
    ("inputs", .arr (info.inputs.map InputArg.encode))] ++
      optional "output" OutputArg.encode info.output) ++ ['}'], ?_⟩
  simp [StepMeta.encode, print, printMembers, quote]

/-- The text of a module tells the id of its step. -/
theorem renderStepModule_id {first second : StepMeta}
    (same : renderStepModule first = renderStepModule second) : first.id = second.id := by
  rw [renderStepModule_split, renderStepModule_split, ← String.toList_inj] at same
  simp only [String.toList_append, compact, String.toList_ofList] at same
  have printed := List.append_cancel_left (List.append_cancel_right same)
  obtain ⟨rest, firstText⟩ := print_id first
  obtain ⟨rest', secondText⟩ := print_id second
  rw [firstText, secondText] at printed
  have quoted := List.append_cancel_left printed
  have ids := congrArg stringBody (List.cons.inj (List.cons.inj quoted).2).2
  rw [stringBody_escape, stringBody_escape] at ids
  exact String.toList_inj.mp (Prod.mk.inj (Except.ok.inj ids)).1

end StepFlow.Compile
