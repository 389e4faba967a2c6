import StepFlow.Proofs.Workspace.Standing

/-!
Programs that are placed again. The files of a program hold what the program wants, and where
several steps name one directory, what the last of them wants. That depends on the program alone, so
placing it once more changes nothing, and placing it where others have been placed gives the same
files as placing it first.
-/
namespace StepFlow.Workspace
open Compile FileTree

/-- The last of some steps in the directory that an id names. -/
def holder? (steps : List (String × InlineCode)) (id : String) : Option (String × InlineCode) :=
  steps.reverse.find? fun step => decide (components step.1 = components id)

/-- The files of the program and of some of its steps hold what they are meant to, those of a step
what the last step in the directory wants. -/
structure Held (t : FileTree) (dir : String) (program : Program)
    (steps : List (String × InlineCode)) : Prop where
  program : t.read (joinPath dir programFile) = .ok program.source
  steps : ∀ step ∈ steps, ∀ last, holder? steps step.1 = some last →
    StepInPlace t dir (step.1, last.2)

def writtenPaths (dir : String) (steps : List (String × InlineCode)) : List String :=
  joinPath dir programFile :: steps.flatMap fun step =>
    [joinPath (stepDirectory dir step.1) "code.js", joinPath (stepDirectory dir step.1) "index.js"]

section
variable {steps : List (String × InlineCode)} {step last : String × InlineCode} {id : String}

theorem holder?_split (holds : holder? steps id = some last) :
    components last.1 = components id ∧ ∃ before later, steps = before ++ last :: later ∧
      ∀ other ∈ later, components other.1 ≠ components last.1 := by
  obtain ⟨same, behind, front, reversed, others⟩ := List.find?_eq_some_iff_append.mp holds
  have same : components last.1 = components id := by simpa using same
  refine ⟨same, front.reverse, behind.reverse, ?_, fun other member => ?_⟩
  · rw [← List.reverse_reverse steps, reversed]
    simp
  · have different := others other (List.mem_reverse.mp member)
    rw [same]
    simpa using different

theorem holder?_isSome (member : step ∈ steps) : ∃ last, holder? steps step.1 = some last := by
  rw [← Option.isSome_iff_exists, holder?, List.find?_isSome]
  exact ⟨step, List.mem_reverse.mpr member, by simp⟩

theorem written_step (dir : String) (member : step ∈ steps) {file : String}
    (either : file ∈ ["code.js", "index.js"]) :
    joinPath (stepDirectory dir step.1) file ∈ writtenPaths dir steps := by
  refine List.mem_cons_of_mem _ (List.mem_flatMap.mpr ⟨step, member, ?_⟩)
  simp only [List.mem_cons, List.not_mem_nil, or_false] at either ⊢
  rcases either with rfl | rfl
  · exact .inl rfl
  · exact .inr rfl

theorem Held.reads {t u : FileTree} {dir : String} {program : Program}
    (first : Held t dir program steps) (second : Held u dir program steps) {path : String}
    (written : path ∈ writtenPaths dir steps) :
    ∃ contents, t.read path = .ok contents ∧ u.read path = .ok contents := by
  rcases List.mem_cons.mp written with rfl | inside
  · exact ⟨_, first.program, second.program⟩
  · obtain ⟨step, member, either⟩ := List.mem_flatMap.mp inside
    obtain ⟨last, holds⟩ := holder?_isSome member
    have held := first.steps step member last holds
    have held' := second.steps step member last holds
    simp only [List.mem_cons, List.not_mem_nil, or_false] at either
    rcases either with rfl | rfl
    · exact ⟨_, held.1, held'.1⟩
    · exact ⟨_, held.2, held'.2⟩

end

section
variable {t u : FileTree} {root app a dir path : String} {program : Program}
  {steps : List (String × InlineCode)}

theorem opening_file {contents : String}
    (member : .file path contents ∈ opening root app program steps) :
    path ∈ writtenPaths (joinPath root app) steps := by
  simp only [opening, List.cons_append, List.mem_cons, List.mem_append, List.mem_map,
    List.mem_flatMap, reduceCtorEq, false_or, Task.file.injEq, List.not_mem_nil, or_false] at member
  rcases member with (⟨_, _, impossible⟩ | ⟨rfl, _⟩) | ⟨step, inside, wanted⟩
  · cases impossible
  · exact List.mem_cons_self
  · simp only [stepTasks_eq, List.mem_cons, reduceCtorEq, Task.file.injEq, List.not_mem_nil,
      or_false, false_or] at wanted
    rcases wanted with ⟨rfl, _⟩ | ⟨rfl, _⟩
    · exact written_step _ inside (by simp)
    · exact written_step _ inside (by simp)

theorem opening_writes {rest : List Task} {step : String × InlineCode} (member : step ∈ steps)
    (done : Task.runAll t (opening root app program steps ++ rest) = (u, none)) :
    isSegment step.1 = true ∧ ∀ file ∈ ["code.js", "index.js"],
      ∃ contents, u.read (joinPath (stepDirectory (joinPath root app) step.1) file) =
        .ok contents := by
  have stand := Task.runAll_standing done
  have inside {task : Task} (own : task ∈ stepTasks (joinPath root app) step) :
      task ∈ opening root app program steps ++ rest :=
    List.mem_append_left _ (List.mem_append_right _ (List.mem_flatMap.mpr ⟨step, member, own⟩))
  refine ⟨stand (.checkName step.1) (inside (by simp [stepTasks_eq])), fun file either => ?_⟩
  simp only [List.mem_cons, List.not_mem_nil, or_false] at either
  rcases either with rfl | rfl
  · exact stand (.file _ step.2.source) (inside (by simp [stepTasks_eq]))
  · exact stand (.file _ (renderStepModule step.2.info))
      (inside (by simp [stepTasks_eq]))

theorem opening_held (one : components app = [.normal a]) {rest : List Task}
    (sparing : Sparing rest)
    (done : Task.runAll t (opening root app program steps ++ rest) = (u, none)) :
    Held u (joinPath root app) program steps := by
  refine ⟨program_kept one sparing done, fun step member last holds => ?_⟩
  obtain ⟨same, before, later, rfl, apart⟩ := holder?_split holds
  obtain ⟨valid, there⟩ := opening_writes member done
  obtain ⟨s, named⟩ := isSegment_iff.mp valid
  have held := step_kept one (same.trans named) apart sparing done
  have alike {file contents : String} (plain : components file = [.normal file])
      (either : file ∈ ["code.js", "index.js"]) (reads : u.read
        (joinPath (stepDirectory (joinPath root app) last.1) file) = .ok contents) :
      u.read (joinPath (stepDirectory (joinPath root app) step.1) file) = .ok contents := by
    obtain ⟨contents', reads'⟩ := there file either
    have own := stepFile_goesOn root one named file plain
    have other := stepFile_goesOn root one (same.trans named) file plain
    rw [reads', own.read other reads' reads]
  exact ⟨alike (by decide +kernel) (by simp) held.1, alike (by decide +kernel) (by simp) held.2⟩

end

end StepFlow.Workspace
