import StepFlow.Compile.Basic
import StepFlow.Proofs.Compile.Resolution

/-!
What a node is compiled to, and when. A valid step, condition or loop becomes a statement or a
test made of the meanings of its values; any other has a defect, and is refused with an error that
says so.
-/
namespace StepFlow.Compile
open StepFlow.Flow Script

variable {node : Option String} {e : Error}

def inputProp (i : InputArg) : PropKey × Expr :=
  (.ofName i.key, meaning i.source i.type i.value)

theorem resolveInputs_ok_iff {inputs : List InputArg} {props : List (PropKey × Expr)} :
    resolveInputs node inputs = .ok props ↔
      (∀ i ∈ inputs, Resolves i.source i.type i.value) ∧ props = inputs.map inputProp := by
  induction inputs generalizing props with
  | nil => simp only [resolveInputs, List.map_nil, Except.ok.injEq, List.not_mem_nil]; grind
  | cons i inputs ih =>
    simp only [resolveInputs, bind_eq_ok, pure_eq_ok, resolve_ok_iff, ih, List.forall_mem_cons,
      List.map_cons, inputProp]
    constructor
    · rintro ⟨_, ⟨first, rfl⟩, _, ⟨others, rfl⟩, rfl⟩
      exact ⟨⟨first, others⟩, rfl⟩
    · rintro ⟨⟨first, others⟩, rfl⟩
      exact ⟨_, ⟨first, rfl⟩, _, ⟨others, rfl⟩, rfl⟩

theorem resolveInputs_error {inputs : List InputArg} (h : resolveInputs node inputs = .error e) :
    ∃ i ∈ inputs, resolve i.source i.type i.value node = .error e := by
  induction inputs with
  | nil => simp [resolveInputs] at h
  | cons i inputs ih =>
    rcases bind_eq_error.mp h with first | ⟨_, _, h⟩
    · exact ⟨i, by simp, first⟩
    · rcases bind_eq_error.mp h with others | ⟨_, _, h⟩
      · obtain ⟨j, member, refused⟩ := ih others
        exact ⟨j, by simp [member], refused⟩
      · cases h

structure StepCall.Valid (s : StepCall) : Prop where
  inputs : ∀ i ∈ s.inputs, Resolves i.source i.type i.value
  output : ∀ o, s.output = some o → isIdentifier o.key = true

def StepCall.invocation (s : StepCall) (target : Expr) : Expr :=
  .await (.call (.member target "run") [.object (s.inputs.map inputProp), s.info])

def StepCall.statement (s : StepCall) (declared : List String) (target : Expr) : Stmt :=
  match s.output with
  | none => .expr (s.invocation target)
  | some o =>
    if declared.contains o.key then .assign o.key (s.invocation target)
    else .declare o.key (s.invocation target)

def Context.afterStep (c : Context) (s : StepCall) : Context :=
  match s.output with
  | none => c
  | some o => c.declare o.key

theorem declare_declared {c : Context} {key : String} (h : key ∈ c.declared) :
    c.declare key = c := if_pos (List.contains_iff_mem.mpr h)

section
variable {c c' : Context} {target : Expr} {s : StepCall} {stmt : Stmt}

theorem stepStatement_ok (valid : s.Valid) :
    stepStatement c target s = .ok (s.statement c.declared target, c.afterStep s) := by
  have inputs : resolveInputs (label s.id) s.inputs = .ok (s.inputs.map inputProp) :=
    resolveInputs_ok_iff.mpr ⟨valid.inputs, rfl⟩
  simp only [stepStatement, inputs, StepCall.statement, Context.afterStep, StepCall.invocation]
  cases output : s.output with
  | none => rfl
  | some o =>
    have key : checkIdentifier o.key (label s.id) = .ok o.key :=
      checkIdentifier_ok_iff.mpr ⟨valid.output o output, rfl⟩
    simp only [key]
    by_cases seen : o.key ∈ c.declared
    · simp [seen, declare_declared seen, bind, Except.bind, pure, Except.pure]
    · simp [seen, bind, Except.bind, pure, Except.pure]

theorem stepStatement_valid (h : stepStatement c target s = .ok (stmt, c')) : s.Valid := by
  obtain ⟨props, inputs, h⟩ := bind_eq_ok.mp h
  refine ⟨(resolveInputs_ok_iff.mp inputs).1, ?_⟩
  intro o output
  simp only [output] at h
  obtain ⟨key, named, _⟩ := bind_eq_ok.mp h
  exact (checkIdentifier_ok_iff.mp named).1

theorem stepStatement_error {e : Error} (h : stepStatement c target s = .error e) :
    (∃ i ∈ s.inputs, resolve i.source i.type i.value (label s.id) = .error e) ∨
      ∃ o, s.output = some o ∧ isIdentifier o.key = false ∧
        e = .invalidIdentifier (label s.id) o.key := by
  rcases bind_eq_error.mp h with inputs | ⟨props, _, h⟩
  · exact Or.inl (resolveInputs_error inputs)
  · cases output : s.output with
    | none => simp [output] at h; cases h
    | some o =>
      simp only [output] at h
      rcases bind_eq_error.mp h with named | ⟨key, _, h⟩
      · exact Or.inr ⟨o, rfl, checkIdentifier_error_iff.mp named⟩
      · split at h <;> cases h

end

def ComponentStep.target (s : ComponentStep) : Expr :=
  .member (.ident (groupAlias s.group s.version)) s.function

def CodeStep.target (s : CodeStep) : Expr := .ident (codeAlias s.id)

/-- A call as it stands in a script, whatever is called. -/
structure Invocation where
  callee : Expr
  args : List Expr

def Invocation.awaited (call : Invocation) : Expr := .await (.call call.callee call.args)

/-- What a step tells its module of itself. -/
def stepInfo (id name : String) (policy : ErrorPolicy) : Expr :=
  .object [(.ofName "id", .str id), (.ofName "name", .str name),
    (.ofName "errorPolicy", .str policy.wireName)]

def runCall (target : Expr) (inputs : List InputArg) (info : Expr) : Invocation :=
  ⟨.member target "run", [.object (inputs.map inputProp), info]⟩

/-- A step by its own fields: the key of its output, if it has one, and the call of its module. -/
def Node.step? : Node → Option (Option String × Invocation)
  | .code s => some (s.output.map OutputArg.key,
      runCall (CodeStep.target s) s.inputs (stepInfo s.id s.name s.policy))
  | .component s => some (s.output.map OutputArg.key,
      runCall (ComponentStep.target s) s.inputs (stepInfo s.id s.name s.policy))
  | _ => none

structure ComponentStep.Valid (s : ComponentStep) : Prop where
  group : s.group ≠ ""
  version : s.version ≠ ""
  function : isIdentifier s.function = true
  inputs : ∀ i ∈ s.inputs, Resolves i.source i.type i.value
  output : ∀ o, s.output = some o → isIdentifier o.key = true

structure CodeStep.Valid (s : CodeStep) : Prop where
  id : s.id ≠ ""
  inputs : ∀ i ∈ s.inputs, Resolves i.source i.type i.value
  output : ∀ o, s.output = some o → isIdentifier o.key = true

theorem ComponentStep.Valid.call {s : ComponentStep} (valid : ComponentStep.Valid s) :
    (ComponentStep.call s).Valid :=
  ⟨valid.inputs, valid.output⟩

theorem CodeStep.Valid.call {s : CodeStep} (valid : CodeStep.Valid s) : (CodeStep.call s).Valid :=
  ⟨valid.inputs, valid.output⟩

def Context.withGroup (groupRoot : String) (c : Context) (s : ComponentStep) : Context :=
  c.addGroup ⟨s.group, s.version, groupAlias s.group s.version,
    groupPath groupRoot s.group s.version⟩

def Context.withCode (c : Context) (s : CodeStep) : Context :=
  c.addInlineCode s.id ⟨codeAlias s.id, s.source, CodeStep.info s⟩

@[simp] theorem withGroup_declared (groupRoot : String) (c : Context) (s : ComponentStep) :
    (c.withGroup groupRoot s).declared = c.declared := by
  simp only [Context.withGroup, Context.addGroup]
  split <;> rfl

@[simp] theorem withCode_declared (c : Context) (s : CodeStep) :
    (c.withCode s).declared = c.declared := rfl

def Condition.test (c : Condition) : Expr :=
  .binary c.comparison (meaning c.left.source .string c.left.value)
    (meaning c.right.source .string c.right.value)

structure Condition.Valid (c : Condition) : Prop where
  left : Resolves c.left.source .string c.left.value
  right : Resolves c.right.source .string c.right.value

def Loop.iterable (l : Loop) : Expr := meaning l.items.source .list l.items.value

structure Loop.Valid (l : Loop) : Prop where
  items : l.items.value ≠ ""
  iterable : Resolves l.items.source .list l.items.value
  binding : ∃ b, l.binding = some b ∧ isIdentifier b.key = true

def Node.Valid : Node → Prop
  | .code s => CodeStep.Valid s
  | .component s => ComponentStep.Valid s
  | .ifThen c _ => Condition.Valid c
  | .elseIf c _ => Condition.Valid c
  | .otherwise .. => True
  | .forEach l _ => Loop.Valid l

def Node.inputs : Node → List InputArg
  | .code s => s.inputs
  | .component s => s.inputs
  | _ => []

def Node.output? : Node → Option OutputArg
  | .code s => s.output
  | .component s => s.output
  | _ => none

def Node.condition? : Node → Option Condition
  | .ifThen c _ => some c
  | .elseIf c _ => some c
  | _ => none

theorem body_size (node : Node) : sizeOf node.body < sizeOf node := by
  cases node with
  | code s =>
    cases s
    simp only [Node.body, List.nil.sizeOf_spec, Node.code.sizeOf_spec, CodeStep.mk.sizeOf_spec]
    omega
  | component s =>
    cases s
    simp only [Node.body, List.nil.sizeOf_spec, Node.component.sizeOf_spec,
      ComponentStep.mk.sizeOf_spec]
    omega
  | ifThen condition body =>
    simp only [Node.body, Node.ifThen.sizeOf_spec]
    omega
  | elseIf condition body =>
    simp only [Node.body, Node.elseIf.sizeOf_spec]
    omega
  | otherwise id body =>
    simp only [Node.body, Node.otherwise.sizeOf_spec]
    omega
  | forEach l body =>
    simp only [Node.body, Node.forEach.sizeOf_spec]
    omega

theorem inner_size (node : Node) (nodes : List Node) :
    sizeOf node.body < sizeOf (node :: nodes) := by
  have := body_size node
  simp only [List.cons.sizeOf_spec]
  omega

theorem rest_size (node : Node) (nodes : List Node) : sizeOf nodes < sizeOf (node :: nodes) := by
  simp only [List.cons.sizeOf_spec]
  omega

/-- What is wrong with a node of its own, and the error that says so. -/
inductive Defect : Node → Error → Prop where
  | id (s : CodeStep) (missing : s.id = "") : Defect (.code s) (.missingField (label s.id) "id")
  | group (s : ComponentStep) (missing : s.group = "") :
      Defect (.component s) (.missingField (label s.id) "group")
  | version (s : ComponentStep) (missing : s.version = "") :
      Defect (.component s) (.missingField (label s.id) "version")
  | function (s : ComponentStep) (bad : isIdentifier s.function = false) :
      Defect (.component s) (.invalidIdentifier (label s.id) s.function)
  | input (node : Node) (i : InputArg) (member : i ∈ Node.inputs node) (e : Error)
      (refused : resolve i.source i.type i.value node.id? = .error e) : Defect node e
  | output (node : Node) (o : OutputArg) (given : Node.output? node = some o)
      (bad : isIdentifier o.key = false) : Defect node (.invalidIdentifier node.id? o.key)
  | operand (node : Node) (c : Condition) (condition : Node.condition? node = some c)
      (o : Operand) (side : o = c.left ∨ o = c.right) (e : Error)
      (refused : resolve o.source .string o.value (label c.id) = .error e) : Defect node e
  | items (l : Loop) (body : List Node) (missing : l.items.value = "") :
      Defect (.forEach l body) (.missingField (label l.id) "items")
  | binding (l : Loop) (body : List Node) (missing : l.binding = none) :
      Defect (.forEach l body) (.missingField (label l.id) "output")
  | bindingKey (l : Loop) (body : List Node) (b : OutputArg) (given : l.binding = some b)
      (bad : isIdentifier b.key = false) :
      Defect (.forEach l body) (.invalidIdentifier (label l.id) b.key)
  | iterable (l : Loop) (body : List Node) (e : Error)
      (refused : resolve l.items.source .list l.items.value (label l.id) = .error e) :
      Defect (.forEach l body) e

section
variable {groupRoot : String} {c c' : Context} {stmt : Stmt} {e : Error}

/-- A step that has no statement has a defect of its own. -/
theorem step_defect {node : Node} {s : StepCall} {target : Expr} (named : label s.id = node.id?)
    (inputs : s.inputs = Node.inputs node) (output : s.output = Node.output? node)
    (h : stepStatement c target s = .error e) : Defect node e := by
  rcases stepStatement_error h with ⟨i, member, refused⟩ | ⟨o, given, bad, rfl⟩
  · exact .input node i (inputs ▸ member) e (named ▸ refused)
  · rw [named]
    exact .output node o (output ▸ given) bad

theorem compileComponent_ok {s : ComponentStep} (valid : ComponentStep.Valid s) :
    compileComponent groupRoot c s =
      .ok ((ComponentStep.call s).statement c.declared (ComponentStep.target s),
        (c.withGroup groupRoot s).afterStep (ComponentStep.call s)) := by
  have group : ¬ s.group.isEmpty = true := mt String.isEmpty_iff.mp valid.group
  have version : ¬ s.version.isEmpty = true := mt String.isEmpty_iff.mp valid.version
  simp only [compileComponent, group, version, valid.function]
  rw [← withGroup_declared groupRoot c s]
  exact stepStatement_ok valid.call

theorem compileComponent_valid {s : ComponentStep}
    (h : compileComponent groupRoot c s = .ok (stmt, c')) : ComponentStep.Valid s := by
  unfold compileComponent at h
  split at h
  · contradiction
  · rename_i group
    split at h
    · contradiction
    · rename_i version
      split at h
      · contradiction
      · rename_i function
        have call : (ComponentStep.call s).Valid := stepStatement_valid h
        exact ⟨mt String.isEmpty_iff.mpr group, mt String.isEmpty_iff.mpr version,
          by simpa using function, call.inputs, call.output⟩

theorem compileComponent_defect {s : ComponentStep}
    (h : compileComponent groupRoot c s = .error e) : Defect (.component s) e := by
  unfold compileComponent at h
  split at h
  · rename_i group
    cases h
    exact .group s (String.isEmpty_iff.mp group)
  · split at h
    · rename_i version
      cases h
      exact .version s (String.isEmpty_iff.mp version)
    · split at h
      · rename_i function
        cases h
        exact .function s (by simpa using function)
      · exact step_defect rfl rfl rfl h

theorem compileCode_ok {s : CodeStep} (valid : CodeStep.Valid s) :
    compileCode c s = .ok ((CodeStep.call s).statement c.declared (CodeStep.target s),
      (c.withCode s).afterStep (CodeStep.call s)) := by
  have id : ¬ s.id.isEmpty = true := mt String.isEmpty_iff.mp valid.id
  simp only [compileCode, id]
  rw [← withCode_declared c s]
  exact stepStatement_ok valid.call

theorem compileCode_valid {s : CodeStep} (h : compileCode c s = .ok (stmt, c')) :
    CodeStep.Valid s := by
  unfold compileCode at h
  split at h
  · contradiction
  · rename_i id
    have call : (CodeStep.call s).Valid := stepStatement_valid h
    exact ⟨mt String.isEmpty_iff.mpr id, call.inputs, call.output⟩

theorem compileCode_defect {s : CodeStep} (h : compileCode c s = .error e) :
    Defect (.code s) e := by
  unfold compileCode at h
  split at h
  · rename_i id
    have missing := String.isEmpty_iff.mp id
    cases h
    simpa [label, missing] using Defect.id s missing
  · exact step_defect rfl rfl rfl h

theorem conditionTest_ok_iff {condition : Condition} {test : Expr} :
    conditionTest condition = .ok test ↔
      Condition.Valid condition ∧ test = Condition.test condition := by
  simp only [conditionTest, bind_eq_ok, resolve_ok_iff, pure_eq_ok]
  constructor
  · rintro ⟨_, ⟨left, rfl⟩, _, ⟨right, rfl⟩, rfl⟩
    exact ⟨⟨left, right⟩, rfl⟩
  · rintro ⟨valid, rfl⟩
    exact ⟨_, ⟨valid.left, rfl⟩, _, ⟨valid.right, rfl⟩, rfl⟩

theorem conditionTest_defect {node : Node} {condition : Condition}
    (which : Node.condition? node = some condition) (h : conditionTest condition = .error e) :
    Defect node e := by
  rcases bind_eq_error.mp h with left | ⟨_, _, h⟩
  · exact .operand node condition which _ (Or.inl rfl) e left
  · rcases bind_eq_error.mp h with right | ⟨_, _, h⟩
    · exact .operand node condition which _ (Or.inr rfl) e right
    · cases h

theorem loopStatement_ok_iff {l : Loop} {body : List Stmt} :
    loopStatement l body = .ok stmt ↔ Loop.Valid l ∧
      ∃ b, l.binding = some b ∧ stmt = .forOf b.key (Loop.iterable l) body := by
  unfold loopStatement
  by_cases items : l.items.value = ""
  · simp only [String.isEmpty_iff.mpr items, ↓reduceIte, reduceCtorEq, false_iff]
    exact fun valid => valid.1.items items
  · simp only [mt String.isEmpty_iff.mp items, Bool.false_eq_true, ↓reduceIte]
    cases binding : l.binding with
    | none =>
      simp only [reduceCtorEq, false_iff]
      rintro ⟨_, b, given, _⟩
      cases given
    | some b =>
      simp only [bind_eq_ok, checkIdentifier_ok_iff, resolve_ok_iff, pure_eq_ok]
      constructor
      · rintro ⟨_, ⟨named, rfl⟩, _, ⟨iterable, rfl⟩, rfl⟩
        exact ⟨⟨items, iterable, b, binding, named⟩, b, rfl, rfl⟩
      · rintro ⟨⟨_, iterable, b', given, named⟩, b'', given', rfl⟩
        cases given'
        cases binding.symm.trans given
        exact ⟨_, ⟨named, rfl⟩, _, ⟨iterable, rfl⟩, rfl⟩

theorem loopStatement_defect {l : Loop} {nodes : List Node} {body : List Stmt}
    (h : loopStatement l body = .error e) : Defect (.forEach l nodes) e := by
  unfold loopStatement at h
  split at h
  · rename_i items
    cases h
    exact .items l nodes (String.isEmpty_iff.mp items)
  · split at h
    · rename_i binding
      cases h
      exact .binding l nodes binding
    · rename_i b binding
      rcases bind_eq_error.mp h with named | ⟨_, _, h⟩
      · obtain ⟨bad, rfl⟩ := checkIdentifier_error_iff.mp named
        exact .bindingKey l nodes b binding bad
      · rcases bind_eq_error.mp h with iterable | ⟨_, _, h⟩
        · exact .iterable l nodes e iterable
        · cases h

end

end StepFlow.Compile
