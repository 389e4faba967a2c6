import StepFlow.Proofs.Compile.Meaning
import StepFlow.Proofs.Compile.Terms

/-!
The calls of a compiled program. The values of a flow call nothing, whatever their source, so that
the calls in a body are those of its steps, one for each, in the order of the text. Each is made on
the module that the manifest lists for its step, under the name that the program loads it under.
In front of them stand the calls of `require`, one for each module and one for the registry, and
behind them those that end the process and begin the function around the body.
-/
namespace StepFlow.Compile
open StepFlow.Flow Script

def call? : Expr → Option Invocation
  | .call callee args => some ⟨callee, args⟩
  | _ => none

/-- The calls in a script at any depth, in the order of the text, arguments first. -/
def bodyCalls (body : List Stmt) : List Invocation := (bodyTerms body).filterMap call?

def Node.run? (node : Node) : Option Invocation := (Node.step? node).map Prod.snd

theorem plain_calls {e : Expr} (plain : Plain e) : (exprTerms e).filterMap call? = [] := by
  refine List.filterMap_eq_nil_iff.mpr fun t member => ?_
  have data := plain t member
  cases t <;> first | rfl | cases data

theorem invocation_calls (s : StepCall) {target : Expr} (plain : Plain target) :
    (exprTerms (s.invocation target)).filterMap call? =
      [runCall target s.inputs (stepInfo s.id s.name s.policy)] := by
  simp only [invocation_terms, List.filterMap_append, plain_calls (member_plain plain _),
    plain_calls (inputs_plain s), plain_calls (info_plain s)]
  rfl

theorem parts_calls (node : Node) :
    ((Node.parts node).flatMap Part.terms).filterMap call? = (Node.run? node).toList := by
  cases node with
  | code s =>
    have target : Plain (CodeStep.target s) := ident_plain _
    rw [Node.parts, parts_terms, invocation_calls _ target]
    rfl
  | component s =>
    have target : Plain (ComponentStep.target s) := member_plain (ident_plain _) _
    rw [Node.parts, parts_terms, invocation_calls _ target]
    rfl
  | ifThen condition body | elseIf condition body =>
    simp [Node.parts, Part.terms, plain_calls (test_plain condition), Node.run?, Node.step?]
  | otherwise id body => rfl
  | forEach l body =>
    have iterable := plain_calls (meaning_plain l.items.source .list l.items.value)
    cases binding : l.binding <;>
      simp [Node.parts, binding, OutputArg.part, Part.terms, Loop.iterable, iterable, Node.run?,
        Node.step?]

theorem compileList_calls {groupRoot : String} {c c' : Context} {nodes : List Node}
    {body : List Stmt} (list : compileList groupRoot c nodes = .ok (body, c')) :
    bodyCalls body = (flatten nodes).filterMap Node.run? := by
  rw [bodyCalls, bodyTerms_parts, compileList_parts list, flowParts, List.flatMap_assoc,
    List.filterMap_flatMap, List.filterMap_eq_flatMap_toList]
  simp only [parts_calls]

def loading (path : String) : Invocation := ⟨.ident "require", [.str path]⟩

def requiredPaths (m : Manifest) : List String :=
  m.groups.map GroupDependency.path ++
    m.inlineCode.map (fun entry => "./components/" ++ entry.1) ++ ["./global.json"]

theorem bodyTerms_append (first second : List Stmt) :
    bodyTerms (first ++ second) = bodyTerms first ++ bodyTerms second := by
  induction first with
  | nil => rfl
  | cons stmt first ih => rw [List.cons_append, bodyTerms, bodyTerms, ih, List.append_assoc]

theorem bodyCalls_append (first second : List Stmt) :
    bodyCalls (first ++ second) = bodyCalls first ++ bodyCalls second := by
  rw [bodyCalls, bodyTerms_append, List.filterMap_append]
  rfl

theorem bodyCalls_loads {α : Type} (name path : α → String) (l : List α) :
    bodyCalls (l.map fun a => .const (name a) (.require (path a))) =
      l.map fun a => loading (path a) := by
  induction l with
  | nil => rfl
  | cons a l ih =>
    rw [List.map_cons, ← List.singleton_append, bodyCalls_append, ih]
    rfl

theorem loadStatements_calls (m : Manifest) :
    bodyCalls (loadStatements m) = (requiredPaths m).map loading := by
  have codes := bodyCalls_loads (fun entry : String × InlineCode => entry.2.name)
    (fun entry => "./components/" ++ entry.1) m.inlineCode
  rw [loadStatements, bodyCalls_append, bodyCalls_append,
    bodyCalls_loads GroupDependency.name GroupDependency.path, requiredPaths, List.map_append,
    List.map_append, List.map_map, List.map_map]
  exact congrArg₂ (· ++ ·) (congrArg₂ (· ++ ·) rfl codes) rfl

def exitCall : Invocation := ⟨.member (.ident "process") "exit", [.num "0"]⟩

def exit : Stmt := .expr (.call (.member (.ident "process") "exit") [.num "0"])

def entryCall (body : List Stmt) : Invocation := ⟨.asyncFunction (body ++ [exit]), []⟩

theorem entryPoint_calls (body : List Stmt) :
    bodyCalls [entryPoint body] = bodyCalls body ++ [exitCall, entryCall body] := by
  have terms : bodyTerms [entryPoint body] = bodyTerms body ++
      (exprTerms (.call exitCall.callee exitCall.args) ++
        [(entryCall body).callee, .call (entryCall body).callee (entryCall body).args]) := by
    simp [entryPoint, bodyTerms, stmtTerms, exprTerms, itemTerms, bodyTerms_append, exitCall,
      entryCall, exit]
  rw [bodyCalls, terms, List.filterMap_append]
  rfl

def root? : Expr → Option String
  | .ident name => some name
  | .member object _ => root? object
  | _ => none

def Invocation.root? (call : Invocation) : Option String := Compile.root? call.callee

def steps (nodes : List Node) : List Node := (flatten nodes).filter fun n => (Node.run? n).isSome

def Node.group? : Node → Option (String × String)
  | .component s => some (s.group, s.version)
  | _ => none

def Node.codeId? : Node → Option String
  | .code s => some s.id
  | _ => none

def Manifest.nameOf? (m : Manifest) : Node → Option String
  | .component s =>
    (m.groups.find? fun g => g.group == s.group && g.version == s.version).map
      GroupDependency.name
  | .code s => (m.inlineCode.lookup s.id).map InlineCode.name
  | _ => none

def Manifest.names (m : Manifest) : List String :=
  m.groups.map GroupDependency.name ++ m.inlineCode.map fun entry => entry.2.name

/-- The three views of a flow agree: its manifest, what its program loads, and what it calls. Each
step is called under the name in its own entry. -/
structure Accords (groupRoot : String) (nodes : List Node) (m : Manifest) (body stmts : List Stmt) :
    Prop where
  groups : m.groups.map (fun g => (g.group, g.version)) =
    ((flatten nodes).filterMap Node.group?).eraseDups
  paths : ∀ g ∈ m.groups, g = dependency groupRoot (g.group, g.version)
  codes : m.inlineCode.map Prod.fst = ((flatten nodes).filterMap Node.codeId?).eraseDups
  loads : stmts = (m.groups.map fun g => .const g.name (.require g.path)) ++
    (m.inlineCode.map fun entry => .const entry.2.name (.require ("./components/" ++ entry.1))) ++
    [.const "global" (.require "./global.json"),
      .expr (.call (.asyncFunction (body ++ [exit])) [])]
  calls : bodyCalls stmts = (requiredPaths m).map loading ++ (steps nodes).filterMap Node.run? ++
    [exitCall, entryCall body]
  roots : ((steps nodes).filterMap Node.run?).map Invocation.root? =
    (steps nodes).map (Manifest.nameOf? m)
  called : ∀ name, some name ∈ ((steps nodes).filterMap Node.run?).map Invocation.root? ↔
    name ∈ Manifest.names m

section
variable {groupRoot : String} {c : Context} {ms : List Module} {node : Node} {nodes : List Node}

theorem run_module (node : Node) : (Node.run? node).map Invocation.root? =
    (Node.module? node).map fun m => some m.name := by
  cases node <;> rfl

theorem collects_group (collects : Collects groupRoot c ms) {key version : String}
    (member : .group key version ∈ ms) :
    (c.groups.find? fun g => g.group == key && g.version == version) =
      some (dependency groupRoot (key, version)) := by
  have listed : dependency groupRoot (key, version) ∈ c.groups := by
    rw [collects.groups]
    exact List.mem_map_of_mem (List.mem_eraseDups.mpr (List.mem_filterMap.mpr ⟨_, member, rfl⟩))
  cases found : c.groups.find? fun g => g.group == key && g.version == version with
  | none =>
    have absent := List.find?_eq_none.mp found _ listed
    simp [dependency] at absent
  | some g =>
    have same := List.find?_some found
    have member := List.mem_of_find?_eq_some found
    rw [collects.groups] at member
    obtain ⟨pair, _, rfl⟩ := List.mem_map.mp member
    simp only [dependency, Bool.and_eq_true, beq_iff_eq] at same
    rw [← same.1, ← same.2]

theorem collects_code (collects : Collects groupRoot c ms) {id : String}
    (member : .code id ∈ ms) :
    ∃ code, c.inlineCode.lookup id = some code ∧ code.name = codeAlias id := by
  have listed : id ∈ c.inlineCode.map Prod.fst := by
    rw [collects.ids]
    exact List.mem_eraseDups.mpr (List.mem_filterMap.mpr ⟨_, member, rfl⟩)
  cases found : c.inlineCode.lookup id with
  | none =>
    obtain ⟨entry, listed, same⟩ := List.mem_map.mp listed
    have absent := List.lookup_eq_none_iff.mp found entry listed
    simp [same] at absent
  | some code =>
    obtain ⟨before, after, split, _⟩ := List.lookup_eq_some_iff.mp found
    have entry : (id, code) ∈ c.inlineCode :=
      split ▸ List.mem_append_right before List.mem_cons_self
    exact ⟨code, rfl, collects.names _ entry⟩

theorem collects_paths (collects : Collects groupRoot c ms) :
    ∀ g ∈ c.groups, g = dependency groupRoot (g.group, g.version) := by
  intro g member
  rw [collects.groups] at member
  obtain ⟨pair, _, rfl⟩ := List.mem_map.mp member
  rfl

theorem collects_nameOf (collects : Collects groupRoot c ms) {m : Module}
    (module : Node.module? node = some m) (member : m ∈ ms) :
    Manifest.nameOf? c.manifest node = some m.name := by
  cases node with
  | component s =>
    cases module
    simp [Manifest.nameOf?, Context.manifest, collects_group collects member, dependency,
      Module.name]
  | code s =>
    cases module
    obtain ⟨code, found, named⟩ := collects_code collects member
    simp [Manifest.nameOf?, Context.manifest, found, named, Module.name]
  | _ => cases module

theorem collects_manifest_names (collects : Collects groupRoot c ms) :
    Manifest.names c.manifest = (loaded ms).map Module.name :=
  List.append_cancel_right
    ((script_constNames c.manifest []).symm.trans (collects_constNames collects []))

theorem steps_calls (nodes : List Node) :
    (flatten nodes).filterMap Node.run? = (steps nodes).filterMap Node.run? := by
  unfold steps
  induction flatten nodes with
  | nil => rfl
  | cons node nodes ih => cases run : Node.run? node <;> simp [run, ih]

theorem mem_steps : node ∈ steps nodes ↔ node ∈ flatten nodes ∧ (Node.run? node).isSome = true := by
  simp [steps]

theorem step_module (node : Node) : (Node.run? node).isSome = (Node.module? node).isSome := by
  cases node <;> rfl

theorem mem_modules {m : Module} :
    m ∈ modules nodes ↔ ∃ node ∈ steps nodes, Node.module? node = some m := by
  simp only [modules_flatten, List.mem_filterMap, mem_steps]
  constructor
  · rintro ⟨node, member, module⟩
    exact ⟨node, ⟨member, by simp [step_module, module]⟩, module⟩
  · rintro ⟨node, ⟨member, _⟩, module⟩
    exact ⟨node, member, module⟩

theorem steps_roots (f : Node → Option String)
    (named : ∀ node ∈ steps nodes, ∀ m, Node.module? node = some m → f node = some m.name) :
    ((steps nodes).filterMap Node.run?).map Invocation.root? = (steps nodes).map f := by
  have called : ∀ node ∈ steps nodes, (Node.run? node).isSome = true :=
    fun node member => (mem_steps.mp member).2
  generalize steps nodes = steps at named called
  induction steps with
  | nil => rfl
  | cons node nodes ih =>
    have ih := ih (fun n member => named n (List.mem_cons_of_mem _ member))
      (fun n member => called n (List.mem_cons_of_mem _ member))
    obtain ⟨call, run⟩ := Option.isSome_iff_exists.mp (called node List.mem_cons_self)
    have root := run_module node
    rw [run, Option.map_some] at root
    obtain ⟨m, module, same⟩ := Option.map_eq_some_iff.mp root.symm
    rw [List.filterMap_cons_some run, List.map_cons, List.map_cons, ih, ← same,
      named node List.mem_cons_self m module]

/-- A script calls the loader for its modules, then its steps, and last the exit and the function
around them. -/
theorem script_calls {body : List Stmt} {c' : Context}
    (list : compileList groupRoot c nodes = .ok (body, c')) (m : Manifest) :
    bodyCalls (script m body) = (requiredPaths m).map loading ++
      (steps nodes).filterMap Node.run? ++ [exitCall, entryCall body] := by
  rw [script, bodyCalls_append, loadStatements_calls, entryPoint_calls, compileList_calls list,
    steps_calls, List.append_assoc]

theorem run_callee {call : Invocation} (run : Node.run? node = some call) :
    call.callee ≠ .ident "require" := by
  cases node <;> cases run <;> nofun

theorem required_iff {body : List Stmt} {c' : Context}
    (list : compileList groupRoot c nodes = .ok (body, c')) {m : Manifest} {call : Invocation} :
    call ∈ bodyCalls (script m body) ∧ call.callee = .ident "require" ↔
      ∃ path ∈ requiredPaths m, call = loading path := by
  rw [script_calls list, List.append_assoc]
  constructor
  · rintro ⟨member, callee⟩
    rcases List.mem_append.mp member with load | later
    · obtain ⟨path, listed, rfl⟩ := List.mem_map.mp load
      exact ⟨path, listed, rfl⟩
    · rcases List.mem_append.mp later with step | last
      · obtain ⟨node, _, run⟩ := List.mem_filterMap.mp step
        exact absurd callee (run_callee run)
      · simp only [List.mem_cons, List.not_mem_nil, or_false] at last
        rcases last with rfl | rfl <;> cases callee
  · rintro ⟨path, listed, rfl⟩
    exact ⟨List.mem_append_left _ (List.mem_map_of_mem listed), rfl⟩

/-- What the manifest of a compiled flow lists is what its program loads and what it calls. -/
theorem manifest_accords {program : Program} (compiled : compile groupRoot nodes = .ok program) :
    ∃ body stmts, (∃ c, compileList groupRoot {} nodes = .ok (body, c)) ∧
      program.source = printScript stmts ∧
      Accords groupRoot nodes program.manifest body stmts := by
  obtain ⟨body, c, list, rfl⟩ := compile_ok_iff.mp compiled
  refine ⟨body, script c.manifest body, ⟨c, list⟩, rfl, ?_⟩
  have collects := compileList_collects list
  have roots : ((steps nodes).filterMap Node.run?).map Invocation.root? =
      (steps nodes).map (Manifest.nameOf? c.manifest) :=
    steps_roots _ fun node member m module =>
      collects_nameOf collects module (mem_modules.mpr ⟨node, member, module⟩)
  refine ⟨?_, collects_paths collects, ?_, List.append_assoc _ _ _, script_calls list _, roots, ?_⟩
  · have pair : (fun g : GroupDependency => (g.group, g.version)) ∘ dependency groupRoot = id := rfl
    have group : (fun node => (Node.module? node).bind Module.group?) = Node.group? := by
      funext node
      cases node <;> rfl
    simp only [Context.manifest, collects.groups, List.map_map, pair, List.map_id,
      modules_flatten, List.filterMap_filterMap, group]
  · have code : (fun node => (Node.module? node).bind Module.code?) = Node.codeId? := by
      funext node
      cases node <;> rfl
    simp only [Context.manifest, collects.ids, modules_flatten, List.filterMap_filterMap, code]
  · intro name
    rw [roots, collects_manifest_names collects, List.mem_map, List.mem_map]
    constructor
    · rintro ⟨node, member, named⟩
      obtain ⟨m, module⟩ := Option.isSome_iff_exists.mp
        (step_module node ▸ (mem_steps.mp member).2)
      have called := mem_modules.mpr ⟨node, member, module⟩
      rw [collects_nameOf collects module called] at named
      exact ⟨m, mem_loaded.mpr called, Option.some.inj named⟩
    · rintro ⟨m, member, rfl⟩
      have called := mem_loaded.mp member
      obtain ⟨node, step, module⟩ := mem_modules.mp called
      exact ⟨node, step, collects_nameOf collects module called⟩

end

theorem reviewFlow_accords : ∃ program, compile "groups" reviewFlow = .ok program ∧
    ∃ body stmts, (∃ c, compileList "groups" {} reviewFlow = .ok (body, c)) ∧
      program.source = printScript stmts ∧
      Accords "groups" reviewFlow program.manifest body stmts := by
  obtain ⟨program, compiled⟩ := reviewFlow_compiles
  exact ⟨program, compiled, manifest_accords compiled⟩

end StepFlow.Compile
