import Mathlib.Data.List.Basic
import StepFlow.Proofs.Compile.Kept
import StepFlow.Proofs.Compile.StepText
import StepFlow.Proofs.Workspace.Footprint

/-!
What is in place when a program has been placed. A file that a task writes keeps its contents when
no later task writes to the same place. That is so for the program, and for the files of every step
just when no two ids name one directory.
-/
namespace StepFlow.Workspace
open Compile FileTree

namespace Task
variable {t u : FileTree}

theorem runAll_append {first second : List Task} (done : runAll t (first ++ second) = (u, none)) :
    ∃ mid, runAll t first = (mid, none) ∧ runAll mid second = (u, none) := by
  induction first generalizing t with
  | nil => exact ⟨t, rfl, done⟩
  | cons task first ih =>
    rw [List.cons_append, runAll] at done
    rw [runAll]
    split at done
    · exact ih done
    · cases done

theorem runAll_at {before after : List Task} {task : Task}
    (done : runAll t (before ++ task :: after) = (u, none)) :
    ∃ old new, task.run old = (new, none) ∧ runAll new after = (u, none) := by
  obtain ⟨old, _, done⟩ := runAll_append done
  rw [runAll] at done
  split at done
  · rename_i new passed
    exact ⟨old, new, passed, done⟩
  · cases done

theorem runAll_checked {tasks : List Task} (done : runAll t tasks = (u, none)) {task : Task}
    (member : task ∈ tasks) : task.Checked := by
  obtain ⟨before, after, rfl⟩ := List.append_of_mem member
  obtain ⟨old, new, passed, _⟩ := runAll_at done
  exact run_checked passed

theorem writing_ok {path contents : String} (done : writing t path contents = (u, none)) :
    t.write path contents = .ok u := by
  rw [writing] at done
  split at done
  · rename_i written
    cases done
    exact written
  · cases done

theorem file_stays {before after : List Task} {path contents : String}
    (done : runAll t (before ++ file path contents :: after) = (u, none))
    (apart : ∀ p, u.locate path = .ok p → ¬AnyMayChange u after .rewritten p) :
    u.read path = .ok contents := by
  obtain ⟨old, new, passed, rest⟩ := runAll_at done
  exact (runAll_touches rest).read (write_read (writing_ok passed)) apart

theorem freshFile_found {path contents : String}
    (done : (freshFile path contents).run t = (u, none)) : u.contains path = true := by
  rw [run] at done
  split at done
  · rename_i found
    cases done
    exact found
  · exact contains_of_read (write_read (writing_ok done))

end Task

section
variable {t u : FileTree} {root app a : String} {program : Program} {p q : Place}
  {names : List String} {path : String}

theorem Below.place (first : Below u root names p) (second : Below u root names q) : p = q := by
  obtain ⟨base, leads, rfl⟩ := first
  obtain ⟨base', leads', rfl⟩ := second
  rw [leads, Except.ok.injEq] at leads'
  rw [leads']

theorem Below.unique {names' : List String} (first : Below u root names p)
    (second : Below u root names' p) : names = names' := by
  obtain ⟨base, leads, rfl⟩ := first
  obtain ⟨base', leads', same⟩ := second
  rw [leads, Except.ok.injEq] at leads'
  subst leads'
  exact List.append_cancel_left same

theorem GoesOn.read {path' contents contents' : String} (first : GoesOn root names path)
    (second : GoesOn root names path') (reads : u.read path = .ok contents)
    (reads' : u.read path' = .ok contents') : contents = contents' := by
  obtain ⟨p, _, leads, _, lies⟩ := read_iff.mp reads
  obtain ⟨q, _, leads', _, lies'⟩ := read_iff.mp reads'
  obtain rfl := (first.below leads).place (second.below leads')
  rw [lies] at lies'
  cases lies'
  rfl

end

def stepDirectory (dir id : String) : String := joinPath (joinPath dir "components") id

theorem stepTasks_eq (dir : String) (step : String × InlineCode) : stepTasks dir step =
    [.checkName step.1, .directory (stepDirectory dir step.1),
      .file (joinPath (stepDirectory dir step.1) "code.js") step.2.source,
      .file (joinPath (stepDirectory dir step.1) "index.js") (renderStepModule step.2.info)] := rfl

theorem stepFile_goesOn (root : String) {app a id s : String} (one : components app = [.normal a])
    (named : components id = [.normal s]) (file : String)
    (plain : components file = [.normal file]) :
    GoesOn root [a, "components", s, file] (joinPath (stepDirectory (joinPath root app) id) file) :=
  (step_goesOn root one named).join plain

def StepInPlace (u : FileTree) (dir : String) (step : String × InlineCode) : Prop :=
  u.read (joinPath (stepDirectory dir step.1) "code.js") = .ok step.2.source ∧
    u.read (joinPath (stepDirectory dir step.1) "index.js") = .ok (renderStepModule step.2.info)

def DirectoriesApart (m : Manifest) : Prop :=
  ∀ first ∈ m.inlineCode, ∀ second ∈ m.inlineCode,
    components first.1 = components second.1 → first.1 = second.1

section
variable {t u : FileTree} {root app a s file : String} {program : Program} {p : Place}
  {names : List String} {later : List (String × InlineCode)}

def Sparing (tasks : List Task) : Prop :=
  ∀ (u : FileTree) (p : Place), ¬Task.AnyMayChange u tasks .rewritten p

theorem sparing_nil : Sparing [] := fun _ _ none => none

theorem sparing_fresh (path contents : String) : Sparing [.freshFile path contents] := by
  rintro u p (⟨fresh, _⟩ | ⟨_, none⟩)
  · cases fresh
  · exact none

/-- The tasks for a program up to the registry, for some of its steps. -/
def opening (root app : String) (program : Program) (steps : List (String × InlineCode)) :
    List Task :=
  .checkName app :: program.manifest.groups.map .checkGroup ++
    [.directory (joinPath root app),
      .file (joinPath (joinPath root app) programFile) program.source] ++
    steps.flatMap (stepTasks (joinPath root app))

theorem tasks_opening (root app : String) (program : Program) : tasks root app program =
    opening root app program program.manifest.inlineCode ++
      [.freshFile (joinPath (joinPath root app) "global.json") "\x7b\x7d"] := rfl

theorem after_rewritten (one : components app = [.normal a]) {rest : List Task}
    (sparing : Sparing rest) (changes : Task.AnyMayChange u
      (later.flatMap (stepTasks (joinPath root app)) ++ rest) .rewritten p) :
    ∃ step ∈ later, ∃ s file, components step.1 = [.normal s] ∧
      Below u root [a, "components", s, file] p := by
  rcases Task.anyMayChange_append.mp changes with steps | ⟨_, behind⟩
  · obtain ⟨step, member, there⟩ := Task.anyMayChange_flatMap steps
    obtain ⟨s, named, ⟨made, _⟩ | ⟨_, file, _, below⟩⟩ := step_changes one there
    · cases made
    · exact ⟨step, member, s, file, named, below⟩
  · exact absurd behind (sparing u p)

theorem program_kept (one : components app = [.normal a]) {rest : List Task}
    (sparing : Sparing rest)
    (done : Task.runAll t (opening root app program later ++ rest) = (u, none)) :
    u.read (joinPath (joinPath root app) programFile) = .ok program.source := by
  have split : opening root app program later ++ rest =
      (.checkName app :: program.manifest.groups.map .checkGroup ++
        [.directory (joinPath root app)]) ++
      .file (joinPath (joinPath root app) programFile) program.source ::
        (later.flatMap (stepTasks (joinPath root app)) ++ rest) := by
    simp [opening]
  rw [split] at done
  refine Task.file_stays done fun p leads changes => ?_
  obtain ⟨step, _, s, file, _, below⟩ := after_rewritten one sparing changes
  have own : Below u root [a, "index.js"] p :=
    ((app_goesOn root one).join (by decide +kernel)).below leads
  exact absurd (own.unique below) (by simp)

theorem opening_step (root app : String) (program : Program) {step : String × InlineCode}
    (before : List (String × InlineCode)) (rest : List Task) :
    ∃ front, opening root app program (before ++ step :: later) ++ rest = front ++
      .file (joinPath (stepDirectory (joinPath root app) step.1) "code.js") step.2.source ::
      .file (joinPath (stepDirectory (joinPath root app) step.1) "index.js")
        (renderStepModule step.2.info) ::
      (later.flatMap (stepTasks (joinPath root app)) ++ rest) := by
  refine ⟨opening root app program before ++
    [.checkName step.1, .directory (stepDirectory (joinPath root app) step.1)], ?_⟩
  simp [opening, stepTasks_eq]

theorem step_kept (one : components app = [.normal a]) {step : String × InlineCode}
    (named : components step.1 = [.normal s]) {before : List (String × InlineCode)}
    (apart : ∀ other ∈ later, components other.1 ≠ components step.1) {rest : List Task}
    (sparing : Sparing rest)
    (done : Task.runAll t (opening root app program (before ++ step :: later) ++ rest) =
      (u, none)) : StepInPlace u (joinPath root app) step := by
  have code := stepFile_goesOn root one named "code.js" (by decide +kernel)
  have wrapper := stepFile_goesOn root one named "index.js" (by decide +kernel)
  obtain ⟨front, tasks⟩ := opening_step root app program before rest
  rw [tasks] at done
  have quiet : ∀ {file p}, Below u root [a, "components", s, file] p → ¬Task.AnyMayChange u
      (later.flatMap (stepTasks (joinPath root app)) ++ rest) .rewritten p := by
    intro file p own changes
    obtain ⟨other, member, s', file', named', below⟩ := after_rewritten one sparing changes
    have same := own.unique below
    simp only [List.cons.injEq, true_and] at same
    exact apart other member (by rw [named, named', same.1])
  constructor
  · refine Task.file_stays done fun p leads changes => ?_
    rcases changes with ⟨_, leads'⟩ | ⟨_, changes⟩
    · exact absurd ((code.below leads).unique (wrapper.below leads')) (by simp)
    · exact quiet (code.below leads) changes
  · rw [List.append_cons] at done
    exact Task.file_stays done fun p leads => quiet (wrapper.below leads)

theorem program_stays (one : components app = [.normal a])
    (done : Task.runAll t (tasks root app program) = (u, none)) :
    u.read (joinPath (joinPath root app) programFile) = .ok program.source :=
  program_kept one (sparing_fresh _ _) (tasks_opening root app program ▸ done)

theorem step_stays (one : components app = [.normal a]) {step : String × InlineCode}
    (named : components step.1 = [.normal s]) {before : List (String × InlineCode)}
    (split : program.manifest.inlineCode = before ++ step :: later)
    (apart : ∀ other ∈ later, components other.1 ≠ components step.1)
    (done : Task.runAll t (tasks root app program) = (u, none)) :
    StepInPlace u (joinPath root app) step := by
  rw [tasks_opening, split] at done
  exact step_kept one named apart (sparing_fresh _ _) done

theorem materialize_ok {dir : String} (placed : materialize t root app program = (u, .ok dir)) :
    Task.runAll t (tasks root app program) = (u, none) ∧ dir = joinPath root app := by
  rw [materialize] at placed
  split at placed
  · rename_i done
    cases placed
    exact ⟨done, rfl⟩
  · cases placed

theorem apart_of_in_place (one : components app = [.normal a])
    (knows : KnowsIds program.manifest.inlineCode)
    (valid : ∀ step ∈ program.manifest.inlineCode, isSegment step.1 = true)
    (placed : ∀ step ∈ program.manifest.inlineCode, StepInPlace u (joinPath root app) step) :
    DirectoriesApart program.manifest := by
  intro first member second member' same
  obtain ⟨s, named⟩ := isSegment_iff.mp (valid first member)
  have wrapper := stepFile_goesOn root one named "index.js" (by decide +kernel)
  have wrapper' := stepFile_goesOn root one (same ▸ named) "index.js" (by decide +kernel)
  have texts := wrapper.read wrapper' (placed first member).2 (placed second member').2
  rw [← knows first member, ← knows second member', renderStepModule_id texts]

theorem names_checked (done : Task.runAll t (tasks root app program) = (u, none)) :
    isSegment app = true ∧ ∀ step ∈ program.manifest.inlineCode, isSegment step.1 = true := by
  have checked {name : String} (member : Task.checkName name ∈ tasks root app program) :
      isSegment name = true := Task.runAll_checked done member
  refine ⟨checked List.mem_cons_self, fun step member => checked ?_⟩
  simp only [tasks, List.mem_append, List.mem_flatMap]
  exact .inl (.inr ⟨step, member, List.mem_cons_self⟩)

theorem registry_found (done : Task.runAll t (tasks root app program) = (u, none)) :
    u.contains (joinPath (joinPath root app) "global.json") = true := by
  rw [tasks] at done
  obtain ⟨old, new, passed, last⟩ := Task.runAll_at done
  cases last
  exact Task.freshFile_found passed

end

/-- When a program is placed, its own text and the registry are in place, and the files of all steps
just when no two ids name one directory. -/
theorem steps_in_place_iff {groupRoot root app dir : String} {nodes : List Flow.Node}
    {program : Program} {t u : FileTree} (compiled : compile groupRoot nodes = .ok program)
    (placed : materialize t root app program = (u, .ok dir)) :
    u.read (joinPath dir programFile) = .ok program.source ∧
      u.contains (joinPath dir "global.json") = true ∧
      ((∀ step ∈ program.manifest.inlineCode, StepInPlace u dir step) ↔
        DirectoriesApart program.manifest) := by
  obtain ⟨done, rfl⟩ := materialize_ok placed
  obtain ⟨different, knows⟩ := compile_ids compiled
  obtain ⟨appName, valid⟩ := names_checked done
  obtain ⟨a, one⟩ := isSegment_iff.mp appName
  refine ⟨program_stays one done, registry_found done, apart_of_in_place one knows valid, ?_⟩
  intro apart step member
  obtain ⟨s, named⟩ := isSegment_iff.mp (valid step member)
  obtain ⟨before, later, split⟩ := List.append_of_mem member
  refine step_stays one named split (fun other behind same => ?_) done
  have listed : other ∈ program.manifest.inlineCode :=
    split ▸ List.mem_append_right before (List.mem_cons_of_mem step behind)
  rw [split, List.map_append, List.map_cons] at different
  refine (List.nodup_cons.mp different.of_append_right).1 ?_
  exact List.mem_map.mpr ⟨other, behind, apart other listed step member same⟩

def slashSteps : List Flow.CodeStep := [{ id := "a", source := "1" }, { id := "a/", source := "2" }]

def slashFlow : List Flow.Node := slashSteps.map .code

def slashProgram : Program :=
  let manifest : Manifest :=
    ⟨[], slashSteps.map fun s => (s.id, ⟨Script.codeAlias s.id, s.source, CodeStep.info s⟩)⟩
  let body := slashSteps.map fun s => (CodeStep.call s).statement [] (CodeStep.target s)
  ⟨Script.printScript (script manifest body), manifest⟩

theorem slashFlow_compiles : compile "" slashFlow = .ok slashProgram := by
  refine compile_ok_iff.mpr ⟨_, _, compileList_ok_iff.mpr
    ⟨_, .code ?first (.code ?second (.nil _ _)), rfl⟩, rfl⟩
  case first =>
    exact ⟨by decide, (fun _ member => by cases member), fun _ given => by cases given⟩
  case second =>
    exact ⟨by decide, (fun _ member => by cases member), fun _ given => by cases given⟩

theorem ok_of_toOption {ε α : Type} {r : Except ε α} {a : α} (same : r.toOption = some a) :
    r = .ok a := by
  cases r <;> cases same
  rfl

theorem placed_of_toOption {p : FileTree × Except Error String} {dir : String}
    (placed : p.2.toOption = some dir) : p = (p.1, .ok dir) :=
  Prod.ext rfl (ok_of_toOption placed)

theorem slashFlow_placed : ∃ u, materialize {} "apps" "demo" slashProgram = (u, .ok "apps/demo") ∧
    u.read "apps/demo/components/a/code.js" = .ok "2" := by
  have both : (materialize {} "apps" "demo" slashProgram).2.toOption = some "apps/demo" ∧
      ((materialize {} "apps" "demo" slashProgram).1.read
        "apps/demo/components/a/code.js").toOption = some "2" := by
    decide +kernel
  exact ⟨_, placed_of_toOption both.1, ok_of_toOption both.2⟩

theorem slashFlow_overwritten : ∃ program u dir, compile "" slashFlow = .ok program ∧
    materialize {} "apps" "demo" program = (u, .ok dir) ∧
      ¬∀ step ∈ program.manifest.inlineCode, StepInPlace u dir step := by
  obtain ⟨u, placed, reads⟩ := slashFlow_placed
  refine ⟨slashProgram, u, _, slashFlow_compiles, placed, fun inPlace => ?_⟩
  have first := (inPlace _ List.mem_cons_self).1
  have path : joinPath (stepDirectory "apps/demo" "a") "code.js" =
      "apps/demo/components/a/code.js" := by
    decide +kernel
  rw [path, reads] at first
  exact absurd (Except.ok.inj first) (by decide : "2" ≠ "1")

theorem slashFlow_in_place_iff : ∃ program u dir, compile "" slashFlow = .ok program ∧
    materialize {} "apps" "demo" program = (u, .ok dir) ∧
      u.read (joinPath dir programFile) = .ok program.source ∧
      u.contains (joinPath dir "global.json") = true ∧
      ((∀ step ∈ program.manifest.inlineCode, StepInPlace u dir step) ↔
        DirectoriesApart program.manifest) := by
  obtain ⟨u, placed, _⟩ := slashFlow_placed
  exact ⟨slashProgram, u, _, slashFlow_compiles, placed,
    steps_in_place_iff slashFlow_compiles placed⟩

end StepFlow.Workspace
