import Mathlib.Data.List.Induction
import Mathlib.Data.List.Nodup
import StepFlow.Proofs.Compile.Pass
import StepFlow.Proofs.Script.Sanitized

/-!
The modules a program loads. A manifest lists the group versions and the code steps that the flow
refers to, at any depth, each in the place of its first reference; the program binds one constant
for each of them and one for the registry. A constant is named after its module, and different
modules can be given one name, so the constants are distinct just when no two modules of the flow
are named alike.
-/
namespace StepFlow.Compile
open StepFlow.Flow Script

inductive Module where
  | group (key version : String)
  | code (id : String)
  deriving DecidableEq, Repr

namespace Module

def text : Module → String
  | group key version => key ++ "_v" ++ version
  | code id => "code_" ++ id

def name : Module → String
  | group key version => groupAlias key version
  | code id => codeAlias id

def group? : Module → Option (String × String)
  | group key version => some (key, version)
  | code _ => none

def code? : Module → Option String
  | group .. => none
  | code id => some id

end Module

def Node.module? : Node → Option Module
  | .component s => some (.group s.group s.version)
  | .code s => some (.code s.id)
  | _ => none

def modules : List Node → List Module
  | [] => []
  | node :: nodes => (Node.module? node).toList ++ modules node.body ++ modules nodes
termination_by nodes => sizeOf nodes
decreasing_by
  all_goals first | exact inner_size node nodes | exact rest_size node nodes

/-- The modules to load, groups before code steps, each once. -/
def loaded (ms : List Module) : List Module :=
  ((ms.filterMap Module.group?).eraseDups.map fun g => .group g.1 g.2) ++
    (ms.filterMap Module.code?).eraseDups.map .code

def constNames (body : List Stmt) : List String :=
  body.filterMap fun
    | .const name _ => some name
    | _ => none

section
variable {α : Type} [BEq α] [LawfulBEq α]

theorem eraseDups_snoc (as : List α) (a : α) :
    (as ++ [a]).eraseDups = if as.contains a then as.eraseDups else as.eraseDups ++ [a] := by
  rw [List.eraseDups_append]
  by_cases seen : a ∈ as <;> simp [seen, List.removeAll, List.eraseDups_cons]

theorem nodup_eraseDups (as : List α) : as.eraseDups.Nodup := by
  induction as using List.reverseRecOn with
  | nil => simp
  | append_singleton as a ih =>
    rw [eraseDups_snoc]
    split
    · exact ih
    · rename_i fresh
      rw [← List.concat_eq_append]
      exact ih.concat fun member => fresh (List.contains_iff_mem.mpr (List.mem_eraseDups.mp member))

end

section
variable {ms : List Module} {m : Module}

theorem mem_loaded : m ∈ loaded ms ↔ m ∈ ms := by
  cases m with
  | group key version =>
    simp only [loaded, List.mem_append, List.mem_map, List.mem_eraseDups, List.mem_filterMap]
    constructor
    · rintro (⟨_, ⟨m, member, same⟩, given⟩ | ⟨_, _, given⟩)
      · cases given
        cases m <;> cases same
        exact member
      · cases given
    · exact fun member => Or.inl ⟨_, ⟨_, member, rfl⟩, rfl⟩
  | code id =>
    simp only [loaded, List.mem_append, List.mem_map, List.mem_eraseDups, List.mem_filterMap]
    constructor
    · rintro (⟨_, _, given⟩ | ⟨_, ⟨m, member, same⟩, given⟩)
      · cases given
      · cases given
        cases m <;> cases same
        exact member
    · exact fun member => Or.inr ⟨_, ⟨_, member, rfl⟩, rfl⟩

theorem loaded_nodup (ms : List Module) : (loaded ms).Nodup := by
  refine List.Nodup.append ?_ ?_ ?_
  · refine (nodup_eraseDups _).map fun g h same => ?_
    obtain ⟨key, version⟩ := Module.group.inj same
    exact Prod.ext key version
  · exact (nodup_eraseDups _).map fun _ _ => Module.code.inj
  · intro m first second
    obtain ⟨_, _, rfl⟩ := List.mem_map.mp first
    obtain ⟨_, _, same⟩ := List.mem_map.mp second
    cases same

theorem name_eq (m : Module) : m.name = sanitize m.text := by
  cases m <;> rfl

theorem name_eq_iff {n : Module} : m.name = n.name ↔ Alike m.text n.text := by
  rw [name_eq, name_eq, sanitize_eq_iff]

/-- No module is loaded under the name of the registry, which has no underscore. -/
theorem name_not_global (m : Module) : m.name ≠ globalName := by
  have underscore : '_' ∈ m.text.toList := by
    cases m <;> simp [Module.text, String.toList_append]
  have kept : '_' ∈ m.name.toList := by
    rw [name_eq]
    exact sanitize_keeps (by decide) underscore
  intro same
  rw [same] at kept
  revert kept
  decide

end

def dependency (groupRoot : String) (g : String × String) : GroupDependency :=
  ⟨g.1, g.2, groupAlias g.1 g.2, groupPath groupRoot g.1 g.2⟩

/-- A context has collected just these modules, each under its name. -/
structure Collects (groupRoot : String) (c : Context) (ms : List Module) : Prop where
  groups : c.groups = (ms.filterMap Module.group?).eraseDups.map (dependency groupRoot)
  ids : c.inlineCode.map Prod.fst = (ms.filterMap Module.code?).eraseDups
  names : ∀ entry ∈ c.inlineCode, entry.2.name = codeAlias entry.1

section
variable {α : Type} {key : String} {a : α}

theorem putKeyed_keys (l : List (String × α)) : (putKeyed key a l).map Prod.fst =
    if (l.map Prod.fst).contains key then l.map Prod.fst else l.map Prod.fst ++ [key] := by
  induction l with
  | nil => rfl
  | cons entry l ih =>
    rw [putKeyed]
    by_cases here : entry.1 = key
    · simp [here]
    · have other : key ≠ entry.1 := fun same => here same.symm
      simp only [here, if_false, List.map_cons, ih]
      by_cases later : key ∈ l.map Prod.fst <;> simp_all

theorem putKeyed_mem {l : List (String × α)} {entry : String × α}
    (member : entry ∈ putKeyed key a l) : entry = (key, a) ∨ entry ∈ l := by
  induction l with
  | nil => exact Or.inl (List.mem_singleton.mp member)
  | cons first l ih =>
    rw [putKeyed] at member
    split at member
    · rename_i same
      rcases List.mem_cons.mp member with rfl | later
      · exact Or.inl (by rw [same])
      · exact Or.inr (List.mem_cons_of_mem _ later)
    · rcases List.mem_cons.mp member with rfl | later
      · exact Or.inr List.mem_cons_self
      · exact (ih later).imp_right (List.mem_cons_of_mem _)

end

section
variable {groupRoot : String} {c c' : Context} {ms : List Module}

theorem afterStep_collects (collects : Collects groupRoot c ms) (s : StepCall) :
    Collects groupRoot (c.afterStep s) ms := by
  unfold Context.afterStep
  split
  · exact collects
  · unfold Context.declare
    split
    · exact collects
    · exact ⟨collects.groups, collects.ids, collects.names⟩

theorem withGroup_collects (collects : Collects groupRoot c ms) (s : ComponentStep) :
    Collects groupRoot (c.withGroup groupRoot s) (ms ++ [Module.group s.group s.version]) := by
  have known : (c.groups.any fun h => h.group == s.group && h.version == s.version) =
      (ms.filterMap Module.group?).contains (s.group, s.version) := by
    rw [collects.groups, Bool.eq_iff_iff, List.contains_iff_mem, ← List.mem_eraseDups]
    simp [dependency]
  have groups : (ms ++ [Module.group s.group s.version]).filterMap Module.group? =
      ms.filterMap Module.group? ++ [(s.group, s.version)] := List.filterMap_append
  have codes : (ms ++ [Module.group s.group s.version]).filterMap Module.code? =
      ms.filterMap Module.code? := List.filterMap_append.trans (List.append_nil _)
  refine ⟨?_, ?_, ?_⟩
  · rw [groups, eraseDups_snoc, Context.withGroup, Context.addGroup, known]
    split
    · exact collects.groups
    · rw [List.map_append, ← collects.groups]
      rfl
  · rw [codes, ← collects.ids, Context.withGroup, Context.addGroup]
    split <;> rfl
  · rw [Context.withGroup, Context.addGroup]
    split <;> exact collects.names

theorem withCode_collects (collects : Collects groupRoot c ms) (s : CodeStep) :
    Collects groupRoot (c.withCode s) (ms ++ [Module.code s.id]) := by
  have groups : (ms ++ [Module.code s.id]).filterMap Module.group? = ms.filterMap Module.group? :=
    List.filterMap_append.trans (List.append_nil _)
  have codes : (ms ++ [Module.code s.id]).filterMap Module.code? =
      ms.filterMap Module.code? ++ [s.id] := List.filterMap_append
  refine ⟨?_, ?_, ?_⟩
  · rw [groups, ← collects.groups]
    rfl
  · rw [codes, eraseDups_snoc, Context.withCode, Context.addInlineCode, putKeyed_keys,
      collects.ids]
    simp
  · intro entry member
    rcases putKeyed_mem member with rfl | before
    · rfl
    · exact collects.names entry before

theorem modules_inner {node : Node} {nodes : List Node} (inner : Node.module? node = none) :
    modules (node :: nodes) = modules node.body ++ modules nodes := by
  simp [modules, inner]

/-- A pass collects the modules of its nodes behind those collected before. -/
theorem pass_collects {m m' : Merger} {nodes : List Node} (p : Pass groupRoot c m nodes m' c') :
    ∀ {ms}, Collects groupRoot c ms → Collects groupRoot c' (ms ++ modules nodes) := by
  induction p with
  | nil c m =>
    intro ms collects
    rwa [modules, List.append_nil]
  | ifThen valid inner rest ihBody ih =>
    intro ms collects
    rw [modules_inner rfl, ← List.append_assoc]
    exact ih (ihBody collects)
  | elseIf valid inner pending rest ihBody ih =>
    intro ms collects
    rw [modules_inner rfl, ← List.append_assoc]
    exact ih (ihBody collects)
  | otherwise inner pending rest ihBody ih =>
    intro ms collects
    rw [modules_inner rfl, ← List.append_assoc]
    exact ih (ihBody collects)
  | forEach valid binding inner rest ihBody ih =>
    intro ms collects
    rw [modules_inner rfl, ← List.append_assoc]
    exact ih (ihBody collects)
  | @component c c' m m' s nodes valid rest ih =>
    intro ms collects
    have next := ih (afterStep_collects (withGroup_collects collects s) (ComponentStep.call s))
    simpa [modules, Node.module?, Node.body] using next
  | @code c c' m m' s nodes valid rest ih =>
    intro ms collects
    have next := ih (afterStep_collects (withCode_collects collects s) (CodeStep.call s))
    simpa [modules, Node.module?, Node.body] using next

theorem compileList_collects {nodes : List Node} {body : List Stmt}
    (list : compileList groupRoot {} nodes = .ok (body, c')) :
    Collects groupRoot c' (modules nodes) := by
  obtain ⟨m, p, rfl⟩ := compileList_ok_iff.mp list
  have nothing : Collects groupRoot {} [] := ⟨rfl, rfl, fun _ none => by cases none⟩
  exact pass_collects p nothing

theorem script_constNames (m : Manifest) (body : List Stmt) :
    constNames (script m body) = m.groups.map GroupDependency.name ++
      m.inlineCode.map (fun entry => entry.2.name) ++ [globalName] := by
  simp [script, loadStatements, entryPoint, constNames, List.filterMap_map]

theorem collects_constNames (collects : Collects groupRoot c ms) (body : List Stmt) :
    constNames (script c.manifest body) = (loaded ms).map Module.name ++ [globalName] := by
  have groups : c.groups.map GroupDependency.name =
      (ms.filterMap Module.group?).eraseDups.map fun g => groupAlias g.1 g.2 := by
    rw [collects.groups, List.map_map]
    rfl
  have codes : c.inlineCode.map (fun entry => entry.2.name) =
      (ms.filterMap Module.code?).eraseDups.map codeAlias := by
    rw [← collects.ids, List.map_map]
    exact List.map_congr_left collects.names
  rw [script_constNames, Context.manifest, groups, codes, loaded, List.map_append, List.map_map,
    List.map_map]
  rfl

theorem collects_distinct_iff (collects : Collects groupRoot c ms) (body : List Stmt) :
    (constNames (script c.manifest body)).Nodup ↔
      ∀ m ∈ ms, ∀ n ∈ ms, m ≠ n → ¬ Alike m.text n.text := by
  have other : globalName ∉ (loaded ms).map Module.name := by
    intro member
    obtain ⟨m, _, same⟩ := List.mem_map.mp member
    exact name_not_global m same
  rw [collects_constNames collects, ← List.concat_eq_append, List.nodup_concat,
    List.nodup_map_iff_inj_on (loaded_nodup ms)]
  simp only [mem_loaded, name_eq_iff]
  constructor
  · rintro ⟨_, same⟩ m mIn n nIn different alike
    exact different (same m mIn n nIn alike)
  · refine fun apart => ⟨other, fun m mIn n nIn alike => ?_⟩
    by_contra different
    exact apart m mIn n nIn different alike

end

/-- The constants of a compiled program are those of the modules that its flow refers to and the
one of the registry, and they are distinct just when no two of these modules are named alike. -/
theorem module_names_distinct_iff {groupRoot : String} {nodes : List Node} {program : Program}
    (compiled : compile groupRoot nodes = .ok program) :
    ∃ body, program.source = printScript (script program.manifest body) ∧
      constNames (script program.manifest body) =
        (loaded (modules nodes)).map Module.name ++ [globalName] ∧
      ((constNames (script program.manifest body)).Nodup ↔
        ∀ m ∈ modules nodes, ∀ n ∈ modules nodes, m ≠ n → ¬ Alike m.text n.text) := by
  obtain ⟨body, c, list, rfl⟩ := compile_ok_iff.mp compiled
  have collects := compileList_collects list
  exact ⟨body, rfl, collects_constNames collects body, collects_distinct_iff collects body⟩

def twinFlow : List Node :=
  [.code { id := "a-b", source := "" }, .code { id := "a_b", source := "" }]

theorem twinFlow_passes : ∃ m c, Pass "" {} .empty twinFlow m c ∧
    constNames (script c.manifest m.done) = ["code_a_b", "code_a_b", "global"] := by
  refine ⟨_, _, .code ?first (.code ?second (.nil _ _)), ?names⟩
  case first =>
    exact ⟨by decide, (fun _ member => by cases member), fun _ given => by cases given⟩
  case second =>
    exact ⟨by decide, (fun _ member => by cases member), fun _ given => by cases given⟩
  case names => decide

theorem twinFlow_repeats : ∃ program, compile "" twinFlow = .ok program ∧
    ∃ body, program.source = printScript (script program.manifest body) ∧
      ¬ (constNames (script program.manifest body)).Nodup := by
  obtain ⟨m, c, p, names⟩ := twinFlow_passes
  refine ⟨_, compile_ok_iff.mpr ⟨_, _, compileList_ok_iff.mpr ⟨m, p, rfl⟩, rfl⟩, m.done, rfl, ?_⟩
  rw [names]
  decide

theorem twinFlow_distinct_iff : ∃ program, compile "" twinFlow = .ok program ∧
    ∃ body, program.source = printScript (script program.manifest body) ∧
      constNames (script program.manifest body) =
        (loaded (modules twinFlow)).map Module.name ++ [globalName] ∧
      ((constNames (script program.manifest body)).Nodup ↔
        ∀ m ∈ modules twinFlow, ∀ n ∈ modules twinFlow, m ≠ n → ¬ Alike m.text n.text) := by
  obtain ⟨m, c, p, _⟩ := twinFlow_passes
  have compiled := compile_ok_iff.mpr ⟨_, _, compileList_ok_iff.mpr ⟨m, p, rfl⟩, rfl⟩
  exact ⟨_, compiled, module_names_distinct_iff compiled⟩

end StepFlow.Compile
