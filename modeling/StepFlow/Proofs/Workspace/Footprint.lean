import Mathlib.Data.List.Basic
import StepFlow.Proofs.Workspace.Growth
import StepFlow.Proofs.Workspace.Path
import StepFlow.Workspace.Materialize

/-!
What is touched when a program is put in place. Each task has a footprint, and the tasks after a
name add theirs only if the name is one segment, whether the work is done or fails. Main statement:
whatever becomes of the work, the changes are the app's own.
-/
namespace StepFlow.Workspace
open Compile FileTree

namespace Task
variable {t u : FileTree} {task : Task} {may : Change → Place → Prop} {change : Change} {p : Place}

/-- What a task may change, told by the tree that it leaves. -/
def MayChange (u : FileTree) : Task → Change → Place → Prop
  | checkName _, _, _ => False
  | checkGroup _, _, _ => False
  | directory path, change, p => change = .made ∧ OnTheWay u (u.start path) (segments path) p
  | file path _, change, p => change ≠ .made ∧ u.locate path = .ok p
  | freshFile path _, change, p => change = .created ∧ u.locate path = .ok p

theorem MayChange.later (touches : Touches t u may) (changes : task.MayChange t change p) :
    task.MayChange u change p := by
  cases task with
  | checkName => exact changes
  | checkGroup => exact changes
  | directory path =>
    rw [MayChange, touches.start]
    exact ⟨changes.1, changes.2.later touches⟩
  | file path => exact ⟨changes.1, touches.locate changes.2⟩
  | freshFile path => exact ⟨changes.1, touches.locate changes.2⟩

theorem writing_touches {path contents : String} (written : (writing t path contents).1 = u) :
    Touches t u fun change p => change ≠ .made ∧ (t.contains path = false → change = .created) ∧
      u.locate path = .ok p := by
  rw [writing] at written
  split at written
  · rename_i done
    cases written
    exact write_touches done
  · cases written
    exact .refl _ _

theorem run_touches (done : (task.run t).1 = u) : Touches t u (task.MayChange u) := by
  cases task with
  | checkName | checkGroup =>
    rw [run] at done
    split at done <;> exact done ▸ .refl _ _
  | directory path => exact makeDirectories_touches done
  | file path contents =>
    exact (writing_touches done).mono fun _ _ changes => ⟨changes.1, changes.2.2⟩
  | freshFile path contents =>
    rw [run] at done
    split at done
    · cases done
      exact .refl _ _
    · rename_i nothing
      have nothing : t.contains path = false := by simpa using nothing
      exact (writing_touches done).mono fun _ _ changes => ⟨changes.2.1 nothing, changes.2.2⟩

def Checked : Task → Prop
  | checkName name => isSegment name = true
  | _ => True

theorem run_checked (done : task.run t = (u, none)) : task.Checked := by
  cases task with
  | checkName name =>
    rw [run] at done
    split at done
    · assumption
    · cases done
  | _ => trivial

/-- What tasks may change: those after a name change nothing unless it is one segment. -/
def AnyMayChange (u : FileTree) : List Task → Change → Place → Prop
  | [], _, _ => False
  | task :: rest, change, p =>
    task.MayChange u change p ∨ task.Checked ∧ AnyMayChange u rest change p

/-- Tasks change nothing but what they may. -/
theorem runAll_touches {tasks : List Task} {refusal : Option Error}
    (done : runAll t tasks = (u, refusal)) : Touches t u (AnyMayChange u tasks) := by
  induction tasks generalizing t with
  | nil =>
    cases done
    exact .refl _ _
  | cons task rest ih =>
    rw [runAll] at done
    split at done
    · rename_i mid passed
      have first : Touches t mid (task.MayChange mid) := run_touches (by rw [passed])
      have later := ih done
      refine .trans (first.mono fun _ _ changes => .inl (changes.later later)) ?_
      exact later.mono fun _ _ changes => .inr ⟨run_checked passed, changes⟩
    · rename_i failed
      cases done
      exact (run_touches (by rw [failed])).mono fun _ _ changes => .inl changes

theorem anyMayChange_append {first second : List Task} :
    AnyMayChange u (first ++ second) change p ↔ AnyMayChange u first change p ∨
      (∀ task ∈ first, task.Checked) ∧ AnyMayChange u second change p := by
  induction first with
  | nil => simp [AnyMayChange]
  | cons task first ih =>
    simp only [List.cons_append, AnyMayChange, ih, List.forall_mem_cons]
    tauto

theorem anyMayChange_flatMap {α : Type} {f : α → List Task} {l : List α}
    (changes : AnyMayChange u (l.flatMap f) change p) : ∃ x ∈ l, AnyMayChange u (f x) change p := by
  induction l with
  | nil => exact changes.elim
  | cons x l ih =>
    rw [List.flatMap_cons, anyMayChange_append] at changes
    rcases changes with here | ⟨_, later⟩
    · exact ⟨x, List.mem_cons_self, here⟩
    · obtain ⟨y, member, there⟩ := ih later
      exact ⟨y, List.mem_cons_of_mem x member, there⟩

theorem anyMayChange_mem {tasks : List Task} (changes : AnyMayChange u tasks change p) :
    ∃ task ∈ tasks, task.MayChange u change p := by
  induction tasks with
  | nil => exact changes.elim
  | cons task rest ih =>
    rcases changes with here | ⟨_, later⟩
    · exact ⟨task, List.mem_cons_self, here⟩
    · obtain ⟨other, member, there⟩ := ih later
      exact ⟨other, List.mem_cons_of_mem task member, there⟩

end Task

section
variable {u : FileTree} {root path name : String} {names : List String} {p : Place}

def Below (u : FileTree) (root : String) (names : List String) (p : Place) : Prop :=
  ∃ base, u.follow (u.start root) (segments root) = .ok base ∧ p = base ++ names

structure GoesOn (root : String) (names : List String) (path : String) : Prop where
  absolute : isAbsolute path = isAbsolute root
  split : segments path = segments root ++ names
  down : ".." ∉ names

namespace GoesOn

theorem refl (root : String) : GoesOn root [] root :=
  ⟨rfl, (List.append_nil _).symm, List.not_mem_nil⟩

theorem join (on : GoesOn root names path) {s : String} (one : components name = [.normal s]) :
    GoesOn root (names ++ [s]) (joinPath path name) := by
  obtain ⟨_, segment, other⟩ := components_normal.mp one
  have relative := normal_relative one
  refine ⟨(joinPath_absolute relative).trans on.absolute, ?_, ?_⟩
  · rw [segments_joinPath relative, on.split, segment, List.append_assoc]
  · simp [on.down, Ne.symm other]

theorem start (on : GoesOn root names path) : u.start path = u.start root := by
  rw [FileTree.start, FileTree.start, on.absolute]

theorem below (on : GoesOn root names path) (leads : u.locate path = .ok p) :
    Below u root names p := by
  have leads := locate_follow leads
  rw [on.start, on.split] at leads
  obtain ⟨base, toBase, down⟩ := follow_append.mp leads
  exact ⟨base, toBase, follow_names on.down down⟩

theorem onTheWay (on : GoesOn root names path) (way : OnTheWay u (u.start path) (segments path) p) :
    OnTheWay u (u.start root) (segments root ++ names) p := by
  rwa [on.start, on.split] at way

end GoesOn

end

theorem app_goesOn (root : String) {app a : String} (one : components app = [.normal a]) :
    GoesOn root [a] (joinPath root app) := (GoesOn.refl root).join one

theorem step_goesOn (root : String) {app a id s : String} (one : components app = [.normal a])
    (step : components id = [.normal s]) :
    GoesOn root [a, "components", s] (joinPath (joinPath (joinPath root app) "components") id) :=
  ((app_goesOn root one).join (by decide +kernel)).join step

/-- The files of an app that are written anew each time, as names below the root of workspaces. -/
inductive Written (app : String) (program : Program) : List String → Prop
  | program {a} (one : components app = [.normal a]) : Written app program [a, "index.js"]
  | step {a s step file} (one : components app = [.normal a])
      (member : step ∈ program.manifest.inlineCode) (named : components step.1 = [.normal s])
      (either : file ∈ ["code.js", "index.js"]) : Written app program [a, "components", s, file]

inductive Owned (app : String) (program : Program) : List String → Prop
  | written {names} (written : Written app program names) : Owned app program names
  | registry {a} (one : components app = [.normal a]) : Owned app program [a, "global.json"]

/-- The changes that are an app's own: only what is written anew is rewritten, only its files are
created, and directories are made on the way to them. -/
def OwnChange (u : FileTree) (root app : String) (program : Program) : Change → Place → Prop
  | .rewritten, p => ∃ names, Written app program names ∧ Below u root names p
  | .created, p => ∃ names, Owned app program names ∧ Below u root names p
  | .made, p => ∃ names file, Owned app program (names ++ [file]) ∧
      OnTheWay u (u.start root) (segments root ++ names) p

section
variable {u : FileTree} {root app a : String} {program : Program} {change : Change} {p : Place}

theorem written_own {names : List String} (written : Written app program names)
    (below : Below u root names p) (file : change ≠ .made) :
    OwnChange u root app program change p := by
  cases change with
  | rewritten => exact ⟨names, written, below⟩
  | created => exact ⟨names, .written written, below⟩
  | made => exact absurd rfl file

theorem step_changes (one : components app = [.normal a]) {step : String × InlineCode}
    (changes : Task.AnyMayChange u (stepTasks (joinPath root app) step) change p) :
    ∃ s, components step.1 = [.normal s] ∧
      ((change = .made ∧
          OnTheWay u (u.start root) (segments root ++ [a, "components", s]) p) ∨
        change ≠ .made ∧ ∃ file ∈ ["code.js", "index.js"],
          Below u root [a, "components", s, file] p) := by
  obtain ⟨id, code⟩ := step
  simp only [stepTasks, Task.AnyMayChange, Task.MayChange, Task.Checked, false_or, true_and,
    and_false, or_false] at changes
  obtain ⟨valid, changes⟩ := changes
  obtain ⟨s, step⟩ := isSegment_iff.mp valid
  have on := step_goesOn root one step
  refine ⟨s, step, ?_⟩
  rcases changes with ⟨made, way⟩ | ⟨file, leads⟩ | ⟨file, leads⟩
  · exact .inl ⟨made, on.onTheWay way⟩
  · exact .inr ⟨file, "code.js", by simp, (on.join (by decide +kernel)).below leads⟩
  · exact .inr ⟨file, "index.js", by simp, (on.join (by decide +kernel)).below leads⟩

theorem step_own (one : components app = [.normal a]) {step : String × InlineCode}
    (member : step ∈ program.manifest.inlineCode)
    (changes : Task.AnyMayChange u (stepTasks (joinPath root app) step) change p) :
    OwnChange u root app program change p := by
  obtain ⟨s, named, ⟨rfl, way⟩ | ⟨made, file, either, below⟩⟩ := step_changes one changes
  · exact ⟨[a, "components", s], "code.js", .written (.step one member named (by simp)), way⟩
  · exact written_own (.step one member named either) below made

theorem tasks_own (changes : Task.AnyMayChange u (tasks root app program) change p) :
    OwnChange u root app program change p := by
  rw [tasks, List.cons_append, List.cons_append, List.cons_append] at changes
  obtain impossible | ⟨valid, changes⟩ := changes
  · exact impossible.elim
  -- from here on the name of the app has passed its check
  obtain ⟨a, one⟩ := isSegment_iff.mp valid
  have on := app_goesOn root one
  simp only [Task.anyMayChange_append, or_assoc] at changes
  rcases changes with groups | ⟨_, program⟩ | ⟨_, steps⟩ | ⟨_, registry⟩
  · obtain ⟨task, member, there⟩ := Task.anyMayChange_mem groups
    obtain ⟨group, _, rfl⟩ := List.mem_map.mp member
    exact there.elim
  · obtain ⟨rfl, way⟩ | ⟨_, ⟨file, leads⟩ | ⟨_, none⟩⟩ := program
    · exact ⟨[a], "index.js", .written (.program one), on.onTheWay way⟩
    · exact written_own (.program one) ((on.join (by decide +kernel)).below leads) file
    · exact none.elim
  · obtain ⟨step, member, there⟩ := Task.anyMayChange_flatMap steps
    exact step_own one member there
  · obtain ⟨rfl, leads⟩ | ⟨_, none⟩ := registry
    · exact ⟨[a, "global.json"], .registry one, (on.join (by decide +kernel)).below leads⟩
    · exact none.elim

end

def TouchesOwn (t u : FileTree) (root app : String) (program : Program) : Prop :=
  Touches t u (OwnChange u root app program)

theorem runAll_touches_own (t : FileTree) (root app : String) (program : Program) (n : Nat) :
    TouchesOwn t (Task.runAll t ((tasks root app program).take n)).1 root app program := by
  refine (Task.runAll_touches rfl).mono fun _ _ changes => tasks_own ?_
  have whole : Task.AnyMayChange _
      ((tasks root app program).take n ++ (tasks root app program).drop n) _ _ :=
    Task.anyMayChange_append.mpr (.inl changes)
  rwa [List.take_append_drop] at whole

/-- Whatever becomes of the work, done or refused, it makes none but the app's own changes; so it is
too where the work is broken off after any of its tasks. -/
theorem materialize_touches_own (t : FileTree) (root app : String) (program : Program) :
    TouchesOwn t (materialize t root app program).1 root app program ∧
      ∀ n, TouchesOwn t (Task.runAll t ((tasks root app program).take n)).1 root app program := by
  refine ⟨?_, runAll_touches_own t root app program⟩
  have left : (materialize t root app program).1 =
      (Task.runAll t (tasks root app program)).1 := by
    rw [materialize]
    split
    · rename_i done
      rw [done]
    · rename_i failed
      rw [failed]
  have whole := runAll_touches_own t root app program (tasks root app program).length
  rwa [List.take_length, ← left] at whole

end StepFlow.Workspace
