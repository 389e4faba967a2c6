import StepFlow.Proofs.Workspace.Repeated

/-!
Programs that are turned away. The name of the app and the groups are checked before anything is
written, but the id of a step only when the steps ahead of it have been placed. So a program that is
turned away for a step leaves the tree as it was just when what comes ahead of that step was in
place already.
-/
namespace StepFlow.Workspace
open Compile FileTree

/-- Whether a program is turned away for what it is, and not by a system call. -/
def Error.rejects : Error → Bool
  | dependencyMissing .. => true
  | invalidName _ => true
  | file .. => false

namespace Task
variable {t u : FileTree} {task : Task} {tasks first second : List Task} {e : Error}

def isCheck : Task → Bool
  | checkName _ => true
  | checkGroup _ => true
  | directory _ => false
  | file .. => false
  | freshFile .. => false

theorem writing_rejects {path contents : String} (failed : writing t path contents = (u, some e)) :
    e.rejects = false := by
  rw [writing] at failed
  split at failed <;> cases failed
  rfl

theorem run_rejected (failed : task.run t = (u, some e)) (rejects : e.rejects = true) :
    task.isCheck = true ∧ u = t ∧ ¬task.Standing t := by
  have refused {path contents : String} (failed : writing t path contents = (u, some e)) :
      False := by
    rw [writing_rejects failed] at rejects
    cases rejects
  cases task with
  | checkName name =>
    rw [run] at failed
    split at failed <;> cases failed
    exact ⟨rfl, rfl, ‹_›⟩
  | checkGroup group =>
    rw [run] at failed
    split at failed <;> cases failed
    exact ⟨rfl, rfl, ‹_›⟩
  | directory path =>
    simp only [run, Prod.mk.injEq, Option.map_eq_some_iff] at failed
    obtain ⟨_, _, _, rfl⟩ := failed
    cases rejects
  | file path contents => exact (refused failed).elim
  | freshFile path contents =>
    rw [run] at failed
    split at failed
    · cases failed
    · exact (refused failed).elim

theorem runAll_failed (failed : runAll t tasks = (u, some e)) :
    ∃ task ∈ tasks, ∃ old, task.run old = (u, some e) := by
  induction tasks generalizing t with
  | nil => cases failed
  | cons task tasks ih =>
    rw [runAll] at failed
    split at failed
    · obtain ⟨other, member, there⟩ := ih failed
      exact ⟨other, List.mem_cons_of_mem task member, there⟩
    · rename_i here
      cases failed
      exact ⟨task, List.mem_cons_self, t, here⟩

theorem writes_reject (writes : ∀ task ∈ tasks, task.isCheck = false)
    (failed : runAll t tasks = (u, some e)) : e.rejects = false := by
  obtain ⟨task, member, old, here⟩ := runAll_failed failed
  refine Bool.eq_false_iff.mpr fun rejects => ?_
  have check := (run_rejected here rejects).1
  rw [writes task member] at check
  cases check

theorem check_rejected (writes : ∀ task ∈ tasks, task.isCheck = false)
    (failed : runAll t (task :: tasks) = (u, some e)) (rejects : e.rejects = true) :
    u = t ∧ ¬task.Standing t := by
  rw [runAll] at failed
  split at failed
  · rw [writes_reject writes failed] at rejects
    cases rejects
  · rename_i here
    cases failed
    exact (run_rejected here rejects).2

theorem checks_stay (checks : ∀ task ∈ tasks, task.isCheck = true) : (runAll t tasks).1 = t := by
  induction tasks with
  | nil => rfl
  | cons task tasks ih =>
    obtain ⟨check, others⟩ := List.forall_mem_cons.mp checks
    have stays : (task.run t).1 = t := by
      cases task with
      | checkName | checkGroup =>
        rw [run]
        split <;> rfl
      | _ => cases check
    rw [runAll]
    split
    · rename_i passed
      rw [passed] at stays
      exact stays ▸ ih others
    · rename_i failed
      rw [failed] at stays
      exact stays

theorem runAll_append_none {mid : FileTree} (done : runAll t first = (mid, none)) :
    runAll t (first ++ second) = runAll mid second := by
  induction first generalizing t with
  | nil =>
    cases done
    rfl
  | cons task first ih =>
    rw [runAll] at done
    rw [List.cons_append, runAll]
    split at done
    · exact ih done
    · cases done

theorem runAll_append_some (failed : runAll t first = (u, some e)) :
    runAll t (first ++ second) = (u, some e) := by
  induction first generalizing t with
  | nil => cases failed
  | cons task first ih =>
    rw [runAll] at failed
    rw [List.cons_append, runAll]
    split at failed
    · exact ih failed
    · exact failed

theorem runAll_append_failed (failed : runAll t (first ++ second) = (u, some e)) :
    runAll t first = (u, some e) ∨
      ∃ mid, runAll t first = (mid, none) ∧ runAll mid second = (u, some e) := by
  rcases here : runAll t first with ⟨mid, _ | e'⟩
  · exact .inr ⟨mid, rfl, (runAll_append_none here).symm.trans failed⟩
  · exact .inl ((runAll_append_some here).symm.trans failed)

theorem runAll_flatMap_failed {α : Type} {f : α → List Task} {l : List α}
    (failed : runAll t (l.flatMap f) = (u, some e)) :
    ∃ before x after mid, l = before ++ x :: after ∧
      runAll t (before.flatMap f) = (mid, none) ∧ runAll mid (f x) = (u, some e) := by
  induction l generalizing t with
  | nil => cases failed
  | cons x l ih =>
    rw [List.flatMap_cons] at failed
    rcases runAll_append_failed failed with here | ⟨mid, done, later⟩
    · exact ⟨[], x, l, t, rfl, rfl, here⟩
    · obtain ⟨before, y, after, mid', rfl, done', there⟩ := ih later
      refine ⟨x :: before, y, after, mid', rfl, ?_, there⟩
      rw [List.flatMap_cons, runAll_append_none done, done']

end Task

def Admitted (t : FileTree) (app : String) (program : Program) : Prop :=
  isSegment app = true ∧ ∀ g ∈ program.manifest.groups, t.contains g.path = true

def stepsAhead (program : Program) : List (String × InlineCode) :=
  program.manifest.inlineCode.takeWhile fun step => isSegment step.1

section
variable {t u : FileTree} {root app : String} {program : Program} {e : Error}
  {steps : List (String × InlineCode)}

def checks (app : String) (program : Program) : List Task :=
  .checkName app :: program.manifest.groups.map .checkGroup

theorem checks_isCheck : ∀ task ∈ checks app program, task.isCheck = true := by
  simp [checks, Task.isCheck]

theorem admitted_iff : Admitted t app program ↔ ∀ task ∈ checks app program, task.Standing t := by
  simp [checks, Admitted, Task.Standing]

theorem admitted_checks (admitted : Admitted t app program) :
    Task.runAll t (checks app program) = (t, none) := by
  obtain ⟨u, done, _⟩ := Task.standing_runAll (admitted_iff.mp admitted)
  have stays : (Task.runAll t (checks app program)).1 = t := Task.checks_stay checks_isCheck
  rw [done] at stays ⊢
  exact stays ▸ rfl

theorem checks_refused (refused : ¬Admitted t app program) :
    ∃ e, Task.runAll t (checks app program) = (t, some e) := by
  have stays : (Task.runAll t (checks app program)).1 = t := Task.checks_stay checks_isCheck
  rcases here : Task.runAll t (checks app program) with ⟨mid, _ | e⟩
  · rw [here] at stays
    cases stays
    exact absurd (admitted_iff.mpr (Task.runAll_standing here)) refused
  · rw [here] at stays
    exact ⟨e, stays ▸ rfl⟩

/-- A program is turned away by a check ahead of all writes, or for a step when the tasks ahead of
it are done. -/
theorem rejected_cases (failed : Task.runAll t (tasks root app program) = (u, some e))
    (rejects : e.rejects = true) :
    ¬Admitted t app program ∧ u = t ∨ Admitted t app program ∧
      Task.runAll t (opening root app program (stepsAhead program)) = (u, none) := by
  let dir := joinPath root app
  have split : tasks root app program = checks app program ++
      ([.directory dir, .file (joinPath dir programFile) program.source] ++
        (program.manifest.inlineCode.flatMap (stepTasks dir) ++
          [.freshFile (joinPath dir globalFile) "\x7b\x7d"])) := by
    simp [tasks, checks, dir]
  have writes {v w : FileTree} {tasks : List Task} (failed : Task.runAll v tasks = (w, some e))
      (none : ∀ task ∈ tasks, task.isCheck = false) : False := by
    rw [Task.writes_reject none failed] at rejects
    cases rejects
  rw [split] at failed
  by_cases admitted : Admitted t app program
  · refine .inr ⟨admitted, ?_⟩
    rw [Task.runAll_append_none (admitted_checks admitted)] at failed
    rcases Task.runAll_append_failed failed with here | ⟨mid, placed, failed⟩
    · exact (writes here (by simp [Task.isCheck])).elim
    rcases Task.runAll_append_failed failed with failed | ⟨_, _, here⟩
    · obtain ⟨before, step, after, mid', listed, done, here⟩ := Task.runAll_flatMap_failed failed
      obtain ⟨rfl, invalid⟩ := Task.check_rejected (by simp [Task.isCheck]) here rejects
      have valid : ∀ step ∈ before, isSegment step.1 = true := fun step member =>
        Task.runAll_checked done (List.mem_flatMap.mpr ⟨step, member, List.mem_cons_self⟩)
      have ahead : stepsAhead program = before := by
        have stops : isSegment step.1 = false := Bool.eq_false_iff.mpr invalid
        rw [stepsAhead, listed, List.takeWhile_append_of_pos valid,
          List.takeWhile_cons_of_neg (by simp [stops]), List.append_nil]
      have front : opening root app program before = checks app program ++
          ([.directory dir, .file (joinPath dir programFile) program.source] ++
            before.flatMap (stepTasks dir)) := by
        simp [opening, checks, dir]
      rw [ahead, front, Task.runAll_append_none (admitted_checks admitted),
        Task.runAll_append_none placed, done]
    · exact (writes here (by simp [Task.isCheck])).elim
  · obtain ⟨e', here⟩ := checks_refused admitted
    rw [Task.runAll_append_some here] at failed
    exact .inl ⟨admitted, (Prod.mk.inj failed).1.symm⟩

theorem held_stands (admitted : Admitted t app program)
    (valid : ∀ step ∈ steps, isSegment step.1 = true)
    (held : Held t (joinPath root app) program steps) :
    ∀ task ∈ opening root app program steps, task.Standing t := by
  intro task member
  have above {dir file contents : String} (plain : components file = [.normal file])
      (reads : t.read (joinPath dir file) = .ok contents) : HasDirectory t dir :=
    hasDirectory_of_read plain reads
  rcases List.mem_append.mp member with front | steps
  · rcases List.mem_append.mp front with check | program
    · exact admitted_iff.mp admitted task check
    · simp only [List.mem_cons, List.not_mem_nil, or_false] at program
      rcases program with rfl | rfl
      · exact above (by decide +kernel) held.program
      · exact ⟨_, held.program⟩
  · obtain ⟨step, inside, own⟩ := List.mem_flatMap.mp steps
    obtain ⟨last, holds⟩ := holder?_isSome inside
    obtain ⟨code, wrapper⟩ := held.steps step inside last holds
    simp only [stepTasks_eq, List.mem_cons, List.not_mem_nil, or_false] at own
    rcases own with rfl | rfl | rfl | rfl
    · exact valid step inside
    · exact above (by decide +kernel) code
    · exact ⟨_, code⟩
    · exact ⟨_, wrapper⟩

end

/-- A program that is turned away leaves the tree as it was just when the name of its app or one of
its groups fails the check, or when the program's file and the files of the steps ahead of the first
invalid id were in place before. Where the name and the groups pass, these files are in place when
the program is turned away. -/
theorem rejected_keeps_iff {t u : FileTree} {root app : String} {program : Program} {e : Error}
    (refused : materialize t root app program = (u, .error e)) (rejects : e.rejects = true) :
    (u = t ↔ ¬Admitted t app program ∨
      Held t (joinPath root app) program (stepsAhead program)) ∧
    (Admitted t app program → Held u (joinPath root app) program (stepsAhead program)) := by
  have failed : Task.runAll t (tasks root app program) = (u, some e) := by
    rw [materialize] at refused
    split at refused <;> cases refused
    assumption
  rcases rejected_cases failed rejects with ⟨denied, rfl⟩ | ⟨admitted, done⟩
  · exact ⟨⟨fun _ => .inl denied, fun _ => rfl⟩, fun admitted => absurd admitted denied⟩
  · obtain ⟨a, one⟩ := isSegment_iff.mp admitted.1
    have held : Held u (joinPath root app) program (stepsAhead program) :=
      opening_held one sparing_nil (by rwa [List.append_nil])
    refine ⟨⟨fun same => .inr (same ▸ held), ?_⟩, fun _ => held⟩
    rintro (denied | held')
    · exact absurd admitted denied
    · have valid : ∀ step ∈ stepsAhead program, isSegment step.1 = true :=
        List.all_eq_true.mp List.all_takeWhile
      refine Task.unchanged_of_reads (held_stands admitted valid held') done ?_
      intro path contents member
      obtain ⟨_, reads, reads'⟩ := held'.reads held (opening_file member)
      rw [reads, reads']

def outsideSteps : List Flow.CodeStep :=
  [{ id := "a", source := "1" }, { id := "../s1", source := "2" }]

def outsideFlow : List Flow.Node := outsideSteps.map .code

def outsideProgram : Program :=
  let manifest : Manifest :=
    ⟨[], outsideSteps.map fun s => (s.id, ⟨Script.codeAlias s.id, s.source, CodeStep.info s⟩)⟩
  let body := outsideSteps.map fun s => (CodeStep.call s).statement [] (CodeStep.target s)
  ⟨Script.printScript (script manifest body), manifest⟩

theorem outsideFlow_compiles : compile "" outsideFlow = .ok outsideProgram := by
  refine compile_ok_iff.mpr ⟨_, _, compileList_ok_iff.mpr
    ⟨_, .code ?first (.code ?second (.nil _ _)), rfl⟩, rfl⟩
  case first =>
    exact ⟨by decide, (fun _ member => by cases member), fun _ given => by cases given⟩
  case second =>
    exact ⟨by decide, (fun _ member => by cases member), fun _ given => by cases given⟩

theorem refused_of {p : FileTree × Except Error String} {e : Error} (refused : p.2 = .error e) :
    p = (p.1, .error e) := Prod.ext rfl refused

theorem outsideProgram_refused : ∃ u, materialize {} "apps" "demo" outsideProgram =
    (u, .error (.invalidName "../s1")) ∧
      u.read "apps/demo/components/a/code.js" = .ok "1" := by
  have both : (materialize {} "apps" "demo" outsideProgram).2 = .error (.invalidName "../s1") ∧
      ((materialize {} "apps" "demo" outsideProgram).1.read
        "apps/demo/components/a/code.js").toOption = some "1" := by
    decide +kernel
  exact ⟨_, refused_of both.1, ok_of_toOption both.2⟩

/-- The program and its first step have been written when the second one is turned away. -/
theorem outsideFlow_written : ∃ program u, compile "" outsideFlow = .ok program ∧
    materialize {} "apps" "demo" program = (u, .error (.invalidName "../s1")) ∧ u ≠ {} := by
  obtain ⟨u, refused, reads⟩ := outsideProgram_refused
  refine ⟨_, u, outsideFlow_compiles, refused, ?_⟩
  rintro rfl
  have nothing : (FileTree.read {} "apps/demo/components/a/code.js").toOption = none := by
    decide +kernel
  rw [reads] at nothing
  cases nothing

theorem outsideProgram_keeps_iff : ∃ u, materialize {} "apps" "demo" outsideProgram =
    (u, .error (.invalidName "../s1")) ∧
      (u = {} ↔ ¬Admitted {} "demo" outsideProgram ∨
        Held {} (joinPath "apps" "demo") outsideProgram (stepsAhead outsideProgram)) ∧
      (Admitted {} "demo" outsideProgram →
        Held u (joinPath "apps" "demo") outsideProgram (stepsAhead outsideProgram)) := by
  obtain ⟨u, refused, _⟩ := outsideProgram_refused
  exact ⟨u, refused, rejected_keeps_iff refused rfl⟩

end StepFlow.Workspace
