import StepFlow.Proofs.Compile.Calls
import StepFlow.Proofs.Compile.Loading

/-!
What becomes of the code of a flow. A pass writes the code of each step under the id of the step,
one after the other, so that of the code steps with one id the last is listed, and what is listed
knows its id. No code is lost just when the id of a code step tells all of it. A step calls the
module of its own entry; something else is loaded under the same name just when another module of
the flow is named alike.
-/
namespace StepFlow.Compile
open StepFlow.Flow Script

def CodeStep.entry (s : CodeStep) : InlineCode :=
  ⟨codeAlias s.id, s.source, ⟨s.id, s.name, s.policy, s.inputs, s.output⟩⟩

def Node.code? : Node → Option CodeStep
  | .code s => some s
  | _ => none

def codeSteps (nodes : List Node) : List CodeStep := (flatten nodes).filterMap Node.code?

def keepCode (listed : List (String × InlineCode)) (s : CodeStep) : List (String × InlineCode) :=
  putKeyed s.id (CodeStep.entry s) listed

def lastCode? (id : String) (codes : List CodeStep) : Option CodeStep :=
  codes.reverse.find? fun s => s.id == id

def KnowsIds (codes : List (String × InlineCode)) : Prop :=
  ∀ entry ∈ codes, entry.2.info.id = entry.1

def constants (name : String) (body : List Stmt) : List Expr :=
  body.filterMap fun
    | .const n init => if n = name then some init else none
    | _ => none

def Module.path (groupRoot : String) : Module → String
  | .group key version => groupPath groupRoot key version
  | .code id => "./components/" ++ id

theorem lookup_putKeyed {α : Type} (key : String) (a : α) (l : List (String × α)) (k : String) :
    (putKeyed key a l).lookup k = if k = key then some a else l.lookup k := by
  induction l with
  | nil =>
    by_cases asked : k = key
    · simp [putKeyed, asked]
    · simp [putKeyed, List.lookup_cons, asked, beq_false_of_ne asked]
  | cons first l ih =>
    obtain ⟨other, b⟩ := first
    by_cases asked : k = other
    · by_cases here : other = key <;> simp [putKeyed, asked, here]
    · have unasked := beq_false_of_ne asked
      by_cases here : other = key
      · rw [here] at asked unasked
        simp [putKeyed, List.lookup_cons, here, asked, unasked]
      · simp [putKeyed, List.lookup_cons, here, unasked, ih]

section
variable {id : String} {codes : List CodeStep} {s t : CodeStep}

theorem entry_inj (same : CodeStep.entry s = CodeStep.entry t) : s = t := by
  cases s
  cases t
  simp_all [CodeStep.entry]

theorem lookup_kept (codes : List CodeStep) (id : String) :
    (codes.foldl keepCode []).lookup id = (lastCode? id codes).map CodeStep.entry := by
  induction codes using List.reverseRecOn with
  | nil => rfl
  | append_singleton codes s ih =>
    rw [List.foldl_append, List.foldl_cons, List.foldl_nil, keepCode, lookup_putKeyed, ih]
    by_cases own : id = s.id
    · simp [lastCode?, own]
    · simp [lastCode?, own, Ne.symm own]

theorem kept_entry {entry : String × InlineCode} (member : entry ∈ codes.foldl keepCode []) :
    ∃ s ∈ codes, entry = (s.id, CodeStep.entry s) := by
  induction codes using List.reverseRecOn with
  | nil => cases member
  | append_singleton codes s ih =>
    rw [List.foldl_append] at member
    rcases putKeyed_mem member with rfl | before
    · exact ⟨s, by simp, rfl⟩
    · obtain ⟨t, earlier, same⟩ := ih before
      exact ⟨t, List.mem_append_left _ earlier, same⟩

theorem lastCode_some (last : lastCode? id codes = some s) : s ∈ codes ∧ s.id = id :=
  ⟨List.mem_reverse.mp (List.mem_of_find?_eq_some last), by simpa using List.find?_some last⟩

theorem lastCode_isSome (member : s ∈ codes) : ∃ t, lastCode? s.id codes = some t := by
  refine Option.isSome_iff_exists.mp (List.find?_isSome.mpr ⟨s, ?_, beq_self_eq_true s.id⟩)
  exact List.mem_reverse.mpr member

theorem lastCode_own_iff : (∀ s ∈ codes, lastCode? s.id codes = some s) ↔
    ∀ s ∈ codes, ∀ t ∈ codes, s.id = t.id → s = t := by
  constructor
  · intro own s member t other same
    have last := own s member
    rw [same, own t other] at last
    exact (Option.some.inj last).symm
  · intro apart s member
    obtain ⟨t, last⟩ := lastCode_isSome member
    obtain ⟨other, same⟩ := lastCode_some last
    rw [last, apart t other s member same]

end

section
variable {groupRoot : String} {c c' : Context} {m m' : Merger} {nodes : List Node}

@[simp] theorem afterStep_inlineCode (c : Context) (s : StepCall) :
    (c.afterStep s).inlineCode = c.inlineCode := by
  unfold Context.afterStep Context.declare
  split
  · rfl
  · split <;> rfl

@[simp] theorem withGroup_inlineCode (groupRoot : String) (c : Context) (s : ComponentStep) :
    (c.withGroup groupRoot s).inlineCode = c.inlineCode := by
  unfold Context.withGroup Context.addGroup
  split <;> rfl

theorem codeSteps_inner {node : Node} (inner : Node.code? node = none) :
    codeSteps (node :: nodes) = codeSteps node.body ++ codeSteps nodes := by
  simp [codeSteps, flatten, inner]

theorem codeSteps_code (s : CodeStep) (nodes : List Node) :
    codeSteps (.code s :: nodes) = s :: codeSteps nodes := by
  simp [codeSteps, flatten, Node.code?, Node.body]

/-- A pass writes the code steps of its nodes into the context, in the order of the text. -/
theorem pass_keeps (p : Pass groupRoot c m nodes m' c') :
    c'.inlineCode = (codeSteps nodes).foldl keepCode c.inlineCode := by
  induction p with
  | nil => simp [codeSteps, flatten]
  | ifThen _ _ _ inner rest => rw [rest, inner, codeSteps_inner rfl, List.foldl_append]; rfl
  | elseIf _ _ _ _ inner rest => rw [rest, inner, codeSteps_inner rfl, List.foldl_append]; rfl
  | otherwise _ _ _ inner rest => rw [rest, inner, codeSteps_inner rfl, List.foldl_append]; rfl
  | forEach _ _ _ _ inner rest => rw [rest, inner, codeSteps_inner rfl, List.foldl_append]; rfl
  | component _ _ rest =>
    rw [rest, codeSteps_inner rfl, afterStep_inlineCode, withGroup_inlineCode]
    simp [codeSteps, flatten, Node.body]
  | code _ _ rest =>
    rw [rest, codeSteps_code, afterStep_inlineCode, List.foldl_cons]
    rfl

theorem compile_entry {program : Program} (compiled : compile groupRoot nodes = .ok program)
    {entry : String × InlineCode} (member : entry ∈ program.manifest.inlineCode) :
    ∃ s ∈ codeSteps nodes, entry = (s.id, CodeStep.entry s) := by
  obtain ⟨body, c, list, rfl⟩ := compile_ok_iff.mp compiled
  obtain ⟨m, p, rfl⟩ := compileList_ok_iff.mp list
  exact kept_entry (pass_keeps p ▸ member)

/-- What a compiled program lists of code steps: ids that differ, and modules that know them. -/
theorem compile_ids {program : Program} (compiled : compile groupRoot nodes = .ok program) :
    (program.manifest.inlineCode.map Prod.fst).Nodup ∧ KnowsIds program.manifest.inlineCode := by
  constructor
  · obtain ⟨body, c, list, rfl⟩ := compile_ok_iff.mp compiled
    have ids : c.inlineCode.map Prod.fst = _ := (compileList_collects list).ids
    rw [Context.manifest, ids]
    exact nodup_eraseDups _
  · intro entry member
    obtain ⟨s, _, rfl⟩ := compile_entry compiled member
    rfl

theorem compileList_keeps {body : List Stmt}
    (list : compileList groupRoot {} nodes = .ok (body, c')) (id : String) :
    c'.inlineCode.lookup id = (lastCode? id (codeSteps nodes)).map CodeStep.entry := by
  obtain ⟨m, p, rfl⟩ := compileList_ok_iff.mp list
  rw [pass_keeps p]
  exact lookup_kept (codeSteps nodes) id

theorem own_entries_iff {listed : List (String × InlineCode)}
    (last : ∀ id, listed.lookup id = (lastCode? id (codeSteps nodes)).map CodeStep.entry) :
    (∀ s ∈ codeSteps nodes, listed.lookup s.id = some (CodeStep.entry s)) ↔
      ∀ s ∈ codeSteps nodes, ∀ t ∈ codeSteps nodes, s.id = t.id → s = t := by
  rw [← lastCode_own_iff]
  refine forall₂_congr fun s _ => ?_
  rw [last]
  constructor
  · intro own
    obtain ⟨t, last, same⟩ := Option.map_eq_some_iff.mp own
    rw [last, entry_inj same]
  · intro own
    rw [own, Option.map_some]

theorem codeStep_flatten {s : CodeStep} : s ∈ codeSteps nodes ↔ .code s ∈ flatten nodes := by
  rw [codeSteps, List.mem_filterMap]
  constructor
  · rintro ⟨node, member, code⟩
    cases node <;> cases code
    exact member
  · exact fun member => ⟨_, member, rfl⟩

theorem codeStep_module {s : CodeStep} (member : s ∈ codeSteps nodes) :
    .code s.id ∈ modules nodes := by
  rw [modules_flatten, List.mem_filterMap]
  exact ⟨_, codeStep_flatten.mp member, rfl⟩

theorem codeStep_called {body : List Stmt} {s : CodeStep}
    (list : compileList groupRoot c nodes = .ok (body, c')) (member : s ∈ codeSteps nodes) :
    runCall (CodeStep.target s) s.inputs (stepInfo s.id s.name s.policy) ∈ bodyCalls body := by
  rw [compileList_calls list, List.mem_filterMap]
  exact ⟨_, codeStep_flatten.mp member, rfl⟩

theorem collects_loads {ms : List Module} (collects : Collects groupRoot c ms) (body : List Stmt) :
    script c.manifest body =
      ((loaded ms).map fun m => .const m.name (.require (m.path groupRoot))) ++
        [.const globalName (.require "./global.json"), entryPoint body] := by
  have codes : c.inlineCode.map (fun entry =>
      Stmt.const entry.2.name (.require ("./components/" ++ entry.1))) =
      (c.inlineCode.map Prod.fst).map fun id =>
        .const (codeAlias id) (.require ("./components/" ++ id)) := by
    rw [List.map_map]
    refine List.map_congr_left fun entry listed => ?_
    rw [collects.names entry listed]
    rfl
  have loads : script c.manifest body = (c.groups.map fun g => .const g.name (.require g.path)) ++
      (c.inlineCode.map fun entry =>
        .const entry.2.name (.require ("./components/" ++ entry.1))) ++
      [.const globalName (.require "./global.json"), entryPoint body] := List.append_assoc _ _ _
  rw [loads, codes, collects.ids, collects.groups, loaded, List.map_append, List.map_map,
    List.map_map, List.map_map]
  rfl

theorem constants_append (name : String) (first second : List Stmt) :
    constants name (first ++ second) = constants name first ++ constants name second :=
  List.filterMap_append

theorem constants_loads (name : String) (ms : List Module) :
    constants name (ms.map fun m => .const m.name (.require (m.path groupRoot))) =
      (ms.filter fun m => m.name = name).map fun m => .require (m.path groupRoot) := by
  induction ms with
  | nil => rfl
  | cons m ms ih =>
    rw [List.map_cons, ← List.singleton_append, constants_append, ih]
    by_cases named : m.name = name <;> simp [constants, named]

theorem collects_constants {ms : List Module} (collects : Collects groupRoot c ms)
    (body : List Stmt) (own : Module) : constants own.name (script c.manifest body) =
      ((loaded ms).filter fun m => m.name = own.name).map fun m => .require (m.path groupRoot) := by
  have bound : constants own.name [.const globalName (.require "./global.json"), entryPoint body] =
      [] := by
    simp [constants, (name_not_global own).symm, entryPoint]
  rw [collects_loads collects, constants_append, bound, List.append_nil, constants_loads]

/-- A module is the only one loaded under its name just when no other one is named alike. -/
theorem loaded_alone_iff {ms : List Module} (collects : Collects groupRoot c ms)
    (body : List Stmt) {own : Module} (member : own ∈ ms) :
    constants own.name (script c.manifest body) = [.require (own.path groupRoot)] ↔
      ∀ m ∈ ms, m.name = own.name → m = own := by
  have named : own ∈ (loaded ms).filter fun m => m.name = own.name :=
    List.mem_filter.mpr ⟨mem_loaded.mpr member, by simp⟩
  rw [collects_constants collects]
  constructor
  · intro alone m other same
    have single : ((loaded ms).filter fun m => m.name = own.name).length = 1 := by
      simpa using congrArg List.length alone
    obtain ⟨one, list⟩ := List.length_eq_one_iff.mp single
    have alike : m ∈ (loaded ms).filter fun m => m.name = own.name :=
      List.mem_filter.mpr ⟨mem_loaded.mpr other, by simpa using same⟩
    rw [list, List.mem_singleton] at named alike
    rw [alike, named]
  · intro alone
    have list : ((loaded ms).filter fun m => m.name = own.name) = [own] := by
      refine List.perm_singleton.mp ((List.perm_ext_iff_of_nodup
        ((loaded_nodup ms).filter _) (List.nodup_singleton own)).mpr fun m => ?_)
      constructor
      · intro alike
        obtain ⟨other, same⟩ := List.mem_filter.mp alike
        exact List.mem_singleton.mpr (alone m (mem_loaded.mp other) (by simpa using same))
      · intro same
        rwa [List.mem_singleton.mp same]
    rw [list, List.map_singleton]

end

/-- Where the code of a compiled flow is found, and what its steps call. The name that a step calls
is bound to its own module alone just when no other module of the flow has that name. -/
structure CodesKept (nodes : List Node) (m : Manifest) (body : List Stmt) : Prop where
  last : ∀ id, m.inlineCode.lookup id = (lastCode? id (codeSteps nodes)).map CodeStep.entry
  own : (∀ s ∈ codeSteps nodes, m.inlineCode.lookup s.id = some (CodeStep.entry s)) ↔
    ∀ s ∈ codeSteps nodes, ∀ t ∈ codeSteps nodes, s.id = t.id → s = t
  called : ∀ s ∈ codeSteps nodes,
    ⟨.member (.ident (codeAlias s.id)) "run",
      [.object (s.inputs.map inputProp), stepInfo s.id s.name s.policy]⟩ ∈ bodyCalls body
  alone : ∀ s ∈ codeSteps nodes,
    constants (codeAlias s.id) (script m body) = [.require ("./components/" ++ s.id)] ↔
      ∀ other ∈ modules nodes, other.name = codeAlias s.id → other = .code s.id

/-- No code of a compiled flow is lost just when code steps with one id are the same; of those that
differ, the last is kept. -/
theorem codes_kept {groupRoot : String} {nodes : List Node} {program : Program}
    (compiled : compile groupRoot nodes = .ok program) :
    ∃ body c, compileList groupRoot {} nodes = .ok (body, c) ∧
      program = ⟨printScript (script c.manifest body), c.manifest⟩ ∧
      CodesKept nodes program.manifest body := by
  obtain ⟨body, c, list, rfl⟩ := compile_ok_iff.mp compiled
  refine ⟨body, c, list, rfl, ?_⟩
  have last := compileList_keeps list
  refine ⟨last, own_entries_iff last, fun s member => codeStep_called list member, ?_⟩
  intro s member
  -- stated before it is used: its name and path are not to be guessed from those of the step
  have alone := loaded_alone_iff (compileList_collects list) body (codeStep_module member)
  exact alone

def sharedFlow : List Node :=
  [.code { id := "a", source := "1" }, .code { id := "a", source := "2" }]

theorem sharedFlow_compiles : ∃ program, compile "" sharedFlow = .ok program ∧
    program.manifest.inlineCode =
      [("a", CodeStep.entry { id := "a", source := "2" })] := by
  refine ⟨_, compile_ok_iff.mpr ⟨_, _, compileList_ok_iff.mpr
    ⟨_, .code ?first (.code ?second (.nil _ _)), rfl⟩, rfl⟩, rfl⟩
  case first =>
    exact ⟨by decide, (fun _ member => by cases member), fun _ given => by cases given⟩
  case second =>
    exact ⟨by decide, (fun _ member => by cases member), fun _ given => by cases given⟩

theorem sharedFlow_loses : ∃ program, compile "" sharedFlow = .ok program ∧
    ∃ s ∈ codeSteps sharedFlow,
      program.manifest.inlineCode.lookup s.id ≠ some (CodeStep.entry s) := by
  obtain ⟨program, compiled, listed⟩ := sharedFlow_compiles
  refine ⟨program, compiled, { id := "a", source := "1" }, ?_, ?_⟩
  · simp [sharedFlow, codeSteps, flatten, Node.code?, Node.body]
  · rw [listed]
    decide

theorem sharedFlow_kept : ∃ program, compile "" sharedFlow = .ok program ∧
    ∃ body c, compileList "" {} sharedFlow = .ok (body, c) ∧
      program = ⟨printScript (script c.manifest body), c.manifest⟩ ∧
      CodesKept sharedFlow program.manifest body := by
  obtain ⟨program, compiled, _⟩ := sharedFlow_compiles
  exact ⟨program, compiled, codes_kept compiled⟩

end StepFlow.Compile
