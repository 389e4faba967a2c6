import StepFlow.Proofs.Compile.Pass

/-!
Compilation keeps the meaning of a flow. Nodes and statements run over one flat environment with
the same evaluation of expressions and the same calls of modules, all of them arbitrary. Nodes run
as they stand, a branching as a whole; statements run as a script does. The proof follows a pass:
what the statements emitted so far do, and then the links held back, and then the nodes still to
come, is what the whole list does.
-/
namespace StepFlow.Compile
open StepFlow.Flow Script

abbrev Env (Value : Type) := String → Value

/-- What is done to a world. There is no result once the program has ended. -/
abbrev Effect (World : Type) := OptionT (StateM World)

/-- How expressions are evaluated and what the call of a module's method does. -/
structure Machine (Value World : Type) where
  value : Env Value → Expr → Value
  truth : Env Value → Expr → Bool
  items : Env Value → Expr → List Value
  call : Value → String → List Value → Effect World Value

/-- The `elseif`s and the `else` that siblings begin with, and the siblings after them. -/
structure Chain where
  links : List (Condition × List Node)
  last : Option (List Node)
  after : List Node

def chainOf : List Node → Chain
  | .elseIf condition body :: nodes =>
    ⟨(condition, body) :: (chainOf nodes).links, (chainOf nodes).last, (chainOf nodes).after⟩
  | .otherwise _ body :: nodes => ⟨[], some body, nodes⟩
  | nodes => ⟨[], none, nodes⟩

def choose (holds : Condition → Bool) (last : Option (List Node)) :
    List (Condition × List Node) → Option (List Node)
  | [] => last
  | (condition, body) :: links => if holds condition then some body else choose holds last links

theorem chainOf_after_size (nodes : List Node) :
    sizeOf (chainOf nodes).after ≤ sizeOf nodes := by
  induction nodes using chainOf.induct with
  | case1 condition body nodes ih =>
    simp only [chainOf, List.cons.sizeOf_spec]
    omega
  | case2 id body nodes =>
    simp only [chainOf, List.cons.sizeOf_spec]
    omega
  | case3 nodes _ _ => rw [chainOf] <;> simp_all

theorem choose_size {holds : Condition → Bool} {nodes body : List Node}
    (h : choose holds (chainOf nodes).last (chainOf nodes).links = some body) :
    sizeOf body < sizeOf nodes := by
  induction nodes using chainOf.induct with
  | case1 condition first nodes ih =>
    simp only [chainOf, choose] at h
    simp only [List.cons.sizeOf_spec, Node.elseIf.sizeOf_spec]
    split at h
    · cases h
      omega
    · have := ih h
      omega
  | case2 id last nodes =>
    simp only [chainOf, choose] at h
    cases h
    simp only [List.cons.sizeOf_spec, Node.otherwise.sizeOf_spec]
    omega
  | case3 nodes noElseIf noElse =>
    rw [chainOf] at h
    · simp [choose] at h
    · exact noElseIf
    · exact noElse

namespace Machine
variable {Value World : Type} (M : Machine Value World)

def store (env : Env Value) (name : String) (v : Value) : Env Value :=
  fun other => if other = name then v else env other

/-- Calls a module with inputs and with what it is told of the step, and stores the result. -/
def runStep (target : Expr) (inputs : List InputArg) (info : Expr) (output : Option OutputArg)
    (env : Env Value) : Effect World (Env Value) := do
  let v ← M.call (M.value env target) "run"
    [M.value env (.object (inputs.map inputProp)), M.value env info]
  return match output with
    | none => env
    | some o => store env o.key v

def holds (env : Env Value) (condition : Condition) : Bool :=
  M.truth env (Condition.test condition)

def loopKey (l : Loop) : String := (l.binding.map OutputArg.key).getD ""

/-- Runs nodes in order. An `elseif` or `else` that belongs to no branching does nothing. -/
def runNodes : List Node → Env Value → Effect World (Env Value)
  | [], env => pure env
  | .code s :: nodes, env => do
    let env ← M.runStep (CodeStep.target s) s.inputs (stepInfo s.id s.name s.policy) s.output env
    runNodes nodes env
  | .component s :: nodes, env => do
    let env ← M.runStep (ComponentStep.target s) s.inputs (stepInfo s.id s.name s.policy)
      s.output env
    runNodes nodes env
  | .forEach l body :: nodes, env => do
    let env ← (M.items env (Loop.iterable l)).foldlM
      (fun env v => runNodes body (store env (loopKey l) v)) env
    runNodes nodes env
  | .ifThen condition body :: nodes, env => do
    let env ← if M.holds env condition then runNodes body env
      else match _chosen : choose (M.holds env) (chainOf nodes).last (chainOf nodes).links with
        | some other => runNodes other env
        | none => pure env
    runNodes (chainOf nodes).after env
  | .elseIf _ _ :: nodes, env => runNodes nodes env
  | .otherwise _ _ :: nodes, env => runNodes nodes env
termination_by nodes => sizeOf nodes
decreasing_by
  all_goals simp only [List.cons.sizeOf_spec, Node.ifThen.sizeOf_spec, Node.forEach.sizeOf_spec]
  all_goals have _after := chainOf_after_size nodes
  all_goals first
    | omega
    | have _smaller := choose_size _chosen
      omega

/-- An awaited call of a method is done; any other expression has a value and no effect. -/
def runExpr (env : Env Value) : Expr → Effect World Value
  | .await (.call (.member target method) args) =>
    M.call (M.value env target) method (args.map (M.value env))
  | e => pure (M.value env e)

mutual

def runStmt : Stmt → Env Value → Effect World (Env Value)
  | .const name init, env => do return store env name (← M.runExpr env init)
  | .declare name init, env => do return store env name (← M.runExpr env init)
  | .assign name value, env => do return store env name (← M.runExpr env value)
  | .expr value, env => do
    let _ ← M.runExpr env value
    return env
  | .ifElse test consequent alternate, env =>
    if M.truth env test then runStmts consequent env else runElse alternate env
  | .block body, env => runStmts body env
  | .forOf binding iterable body, env =>
    (M.items env iterable).foldlM (fun env v => runStmts body (store env binding v)) env

def runElse : Option Stmt → Env Value → Effect World (Env Value)
  | none, env => pure env
  | some stmt, env => runStmt stmt env

def runStmts : List Stmt → Env Value → Effect World (Env Value)
  | [], env => pure env
  | stmt :: stmts, env => do
    let env ← runStmt stmt env
    runStmts stmts env

end

theorem runStmts_append (first second : List Stmt) (env : Env Value) :
    M.runStmts (first ++ second) env = M.runStmts first env >>= M.runStmts second := by
  induction first generalizing env with
  | nil => simp [runStmts]
  | cons stmt stmts ih => simp [runStmts, ih]

theorem runStmts_singleton (stmt : Stmt) (env : Env Value) :
    M.runStmts [stmt] env = M.runStmt stmt env := by
  simp [runStmts]

theorem runStmts_toList (stmt : Option Stmt) (env : Env Value) :
    M.runStmts stmt.toList env = M.runElse stmt env := by
  cases stmt <;> simp [runElse, runStmts]

def taken (env : Env Value) : List Link → Option (List Stmt)
  | [] => none
  | .conditional test body :: links => if M.truth env test then some body else taken env links
  | .otherwise body :: _ => some body

theorem taken_append (env : Env Value) (first second : List Link) :
    M.taken env (first ++ second) = (M.taken env first).or (M.taken env second) := by
  induction first with
  | nil => simp [taken]
  | cons l links ih =>
    cases l with
    | conditional test body =>
      simp only [List.cons_append, taken]
      split
      · rfl
      · exact ih
    | otherwise body => rfl

theorem runElse_nest (links : List Link) (env : Env Value) :
    M.runElse (nest links) env =
      match M.taken env links with
      | some body => M.runStmts body env
      | none => pure env := by
  induction links with
  | nil => rfl
  | cons l links ih =>
    cases l with
    | conditional test body =>
      simp only [nest, runElse, runStmt, taken]
      split
      · rfl
      · exact ih
    | otherwise body => rfl

theorem runStmts_done (m : Merger) (env : Env Value) :
    M.runStmts m.done env = M.runStmts m.emitted env >>= M.runElse (nest m.chain) := by
  simp only [Merger.done, Merger.flush, runStmts_append]
  congr
  funext env
  exact M.runStmts_toList _ env

/-- The statement for a step runs the step. -/
theorem runStmt_statement (s : StepCall) (declared : List String) (target : Expr)
    (env : Env Value) : M.runStmt (s.statement declared target) env =
      M.runStep target s.inputs (stepInfo s.id s.name s.policy) s.output env := by
  have info : s.info = stepInfo s.id s.name s.policy := rfl
  unfold StepCall.statement runStep
  cases s.output with
  | none => simp [runStmt, runExpr, StepCall.invocation, info]
  | some o =>
    by_cases seen : o.key ∈ declared <;> simp [seen, runStmt, runExpr, StepCall.invocation, info]

def runPending (nodes : List Node) (env : Env Value) : Effect World (Env Value) := do
  let env ← match choose (M.holds env) (chainOf nodes).last (chainOf nodes).links with
    | some body => M.runNodes body env
    | none => pure env
  M.runNodes (chainOf nodes).after env

def runBehind (links : List Link) (nodes : List Node) (env : Env Value) :
    Effect World (Env Value) :=
  match M.taken env links with
  | some body => do
    let env ← M.runStmts body env
    M.runNodes (chainOf nodes).after env
  | none => M.runPending nodes env

def Fresh (nodes : List Node) : Prop := chainOf nodes = ⟨[], none, nodes⟩

theorem runBehind_fresh {nodes : List Node} (fresh : Fresh nodes) (links : List Link)
    (env : Env Value) :
    M.runBehind links nodes env = M.runElse (nest links) env >>= M.runNodes nodes := by
  have whole : chainOf nodes = ⟨[], none, nodes⟩ := fresh
  rw [runBehind, runElse_nest]
  cases M.taken env links with
  | some body => simp [whole]
  | none => simp [runPending, whole, choose]

theorem runBehind_done {nodes : List Node} (fresh : Fresh nodes) (m : Merger) (env : Env Value) :
    M.runStmts m.emitted env >>= M.runBehind m.chain nodes =
      M.runStmts m.done env >>= M.runNodes nodes := by
  rw [runStmts_done, bind_assoc]
  congr
  funext env
  exact M.runBehind_fresh fresh m.chain env

theorem runNodes_ifThen (condition : Condition) (body nodes : List Node) (env : Env Value) :
    M.runNodes (.ifThen condition body :: nodes) env =
      if M.holds env condition then
        M.runNodes body env >>= M.runNodes (chainOf nodes).after
      else M.runPending nodes env := by
  rw [runNodes, runPending]
  split
  · rfl
  · split <;> rename_i chosen <;> simp [chosen]

section
variable {stmts : List Stmt} {body : List Node} (same : M.runStmts stmts = M.runNodes body)
include same

theorem runBehind_open (condition : Condition) (nodes : List Node) (env : Env Value) :
    M.runBehind [.conditional (Condition.test condition) stmts] nodes env =
      M.runNodes (.ifThen condition body :: nodes) env := by
  rw [runNodes_ifThen, runBehind, ← same]
  by_cases holds : M.truth env (Condition.test condition) = true
  · simp [taken, Machine.holds, holds]
  · simp [taken, Machine.holds, holds]

theorem runBehind_extend (m : Merger) (condition : Condition) (nodes : List Node)
    (env : Env Value) :
    M.runBehind (m.link (.conditional (Condition.test condition) stmts)).chain nodes env =
      M.runBehind m.chain (.elseIf condition body :: nodes) env := by
  simp only [Merger.link, runBehind, taken_append, chainOf, runPending, choose]
  cases M.taken env m.chain with
  | some first => rfl
  | none =>
    by_cases holds : M.truth env (Condition.test condition) = true
    · simp [taken, Machine.holds, holds, same]
    · simp [taken, Machine.holds, holds]

theorem runBehind_close (links : List Link) (id : String) (nodes : List Node) (env : Env Value) :
    M.runElse (nest (links ++ [Link.otherwise stmts])) env >>= M.runNodes nodes =
      M.runBehind links (.otherwise id body :: nodes) env := by
  simp only [runElse_nest, runBehind, taken_append, chainOf]
  cases M.taken env links with
  | some first => rfl
  | none => simp [taken, runPending, chainOf, choose, same]

end

end Machine

theorem pass_fresh {groupRoot : String} {c c' : Context} {m m' : Merger} {nodes : List Node}
    (p : Pass groupRoot c m nodes m' c') (closed : m.chain = []) : Machine.Fresh nodes := by
  cases p with
  | elseIf _ _ pending _ => exact absurd closed pending
  | otherwise _ pending _ => exact absurd closed pending
  | nil => rfl
  | ifThen => rfl
  | forEach => rfl
  | component => rfl
  | code => rfl

section
variable {Value World : Type} (M : Machine Value World)

theorem body_runs {m : Merger} {body : List Node} (fresh : Machine.Fresh body)
    (runs : ∀ env, M.runStmts m.done env =
      M.runStmts Merger.empty.emitted env >>= M.runBehind Merger.empty.chain body) :
    M.runStmts m.done = M.runNodes body := by
  funext env
  rw [runs, M.runBehind_done fresh]
  simp [Merger.done, Merger.flush, Merger.empty, nest, Machine.runStmts]

/-- A node that becomes one statement and opens no branching: the statement is pushed, and the pass
goes on behind the node. -/
theorem pushed_runs {m m' : Merger} {stmt : Stmt} {node : Node} {nodes : List Node}
    (fresh : Machine.Fresh nodes) (alone : Machine.Fresh (node :: nodes))
    (means : ∀ env, M.runNodes (node :: nodes) env = M.runStmt stmt env >>= M.runNodes nodes)
    (runs : ∀ env, M.runStmts m'.done env =
      M.runStmts (m.push stmt).emitted env >>= M.runBehind (m.push stmt).chain nodes)
    (env : Env Value) : M.runStmts m'.done env =
      M.runStmts m.emitted env >>= M.runBehind m.chain (node :: nodes) := by
  have pushed : (m.push stmt).done = m.done ++ [stmt] := by
    simp [Merger.push, Merger.done, Merger.flush, nest]
  rw [runs, M.runBehind_done fresh, M.runBehind_done alone, pushed, M.runStmts_append, bind_assoc,
    funext means]
  simp only [M.runStmts_singleton]

/-- What has been emitted, then the links held back, then the nodes to come: together they do what
the statements of the finished pass do. -/
theorem pass_runs {groupRoot : String} {c c' : Context} {m m' : Merger} {nodes : List Node}
    (p : Pass groupRoot c m nodes m' c') : ∀ env : Env Value,
    M.runStmts m'.done env = M.runStmts m.emitted env >>= M.runBehind m.chain nodes := by
  induction p with
  | nil c m =>
    intro env
    rw [M.runBehind_done (show Machine.Fresh [] from rfl)]
    have none_left : M.runNodes [] = pure := funext fun env => by rw [Machine.runNodes]
    rw [none_left, bind_pure]
  | @ifThen c ci c' m mi m' condition body nodes valid inner rest ihBody ih =>
    intro env
    have same := body_runs M (pass_fresh inner rfl) ihBody
    calc M.runStmts m'.done env
      _ = M.runStmts m.done env >>=
          M.runBehind [.conditional (Condition.test condition) mi.done] nodes := ih env
      _ = M.runStmts m.done env >>= M.runNodes (.ifThen condition body :: nodes) := by
        rw [funext (M.runBehind_open same condition nodes)]
      _ = M.runStmts m.emitted env >>= M.runBehind m.chain (.ifThen condition body :: nodes) :=
        (M.runBehind_done (show Machine.Fresh (.ifThen condition body :: nodes) from rfl)
          m env).symm
  | @elseIf c ci c' m mi m' condition body nodes valid inner pending rest ihBody ih =>
    intro env
    have same := body_runs M (pass_fresh inner rfl) ihBody
    calc M.runStmts m'.done env
      _ = M.runStmts m.emitted env >>= M.runBehind
          (m.link (.conditional (Condition.test condition) mi.done)).chain nodes := ih env
      _ = M.runStmts m.emitted env >>= M.runBehind m.chain (.elseIf condition body :: nodes) := by
        rw [funext (M.runBehind_extend same m condition nodes)]
  | @otherwise c ci c' m mi m' id body nodes inner pending rest ihBody ih =>
    intro env
    have same := body_runs M (pass_fresh inner rfl) ihBody
    calc M.runStmts m'.done env
      _ = M.runStmts (m.link (.otherwise mi.done)).done env >>= M.runBehind [] nodes := ih env
      _ = M.runStmts (m.link (.otherwise mi.done)).done env >>= M.runNodes nodes := by
        rw [funext (M.runBehind_fresh (pass_fresh rest rfl) [])]
        simp [nest, Machine.runElse]
      _ = M.runStmts m.emitted env >>= M.runBehind m.chain (.otherwise id body :: nodes) := by
        rw [M.runStmts_done, bind_assoc]
        exact congrArg _ (funext (M.runBehind_close same m.chain id nodes))
  | @forEach c ci c' m mi m' l body nodes b valid binding inner rest ihBody ih =>
    have same := body_runs M (pass_fresh inner rfl) ihBody
    have key : Machine.loopKey l = b.key := by simp [Machine.loopKey, binding]
    refine pushed_runs M (pass_fresh rest rfl) rfl (fun env => ?_) ih
    -- each turn of the loop runs the compiled body, which does what the nodes of the body do
    rw [Machine.runNodes, Machine.runStmt, key, same]
  | @component c c' m m' s nodes valid rest ih =>
    refine pushed_runs M (pass_fresh rest rfl) rfl (fun env => ?_) ih
    rw [Machine.runNodes, M.runStmt_statement]
    rfl
  | @code c c' m m' s nodes valid rest ih =>
    refine pushed_runs M (pass_fresh rest rfl) rfl (fun env => ?_) ih
    rw [Machine.runNodes, M.runStmt_statement]
    rfl

theorem compileList_runs {groupRoot : String} {c c' : Context} {nodes : List Node}
    {body : List Stmt} (h : compileList groupRoot c nodes = .ok (body, c')) :
    M.runStmts body = M.runNodes nodes := by
  obtain ⟨m, p, rfl⟩ := compileList_ok_iff.mp h
  exact body_runs M (pass_fresh p rfl) (pass_runs M p)

/-- A program is printed from statements that do what the flow does, from wherever they start. -/
theorem compile_keeps_meaning {groupRoot : String} {nodes : List Node} {program : Program}
    (compiled : compile groupRoot nodes = .ok program) :
    ∃ body c, compileList groupRoot {} nodes = .ok (body, c) ∧
      program = ⟨printScript (script c.manifest body), c.manifest⟩ ∧
      ∀ (env : Env Value) (world : World),
        (M.runStmts body env).run.run world = (M.runNodes nodes env).run.run world := by
  obtain ⟨body, c, list, printed⟩ := compile_ok_iff.mp compiled
  refine ⟨body, c, list, printed, ?_⟩
  intro env world
  rw [compileList_runs M list]

end

def reviewFlow : List Node :=
  [.forEach ⟨"l", ⟨.priorOutput, "orders"⟩, some ⟨"order", .basic .object⟩⟩
    [.ifThen ⟨"i", ⟨.identifier, "order"⟩, .gt, ⟨.literal, "10"⟩⟩
      [.code { id := "big", source := "", output := some ⟨"size", .basic .string⟩ }],
     .elseIf ⟨"j", ⟨.globalEntry, "limit"⟩, .eq, ⟨.literal, ""⟩⟩ [],
     .otherwise "k"
      [.component { id := "c", group := "mail", function := "send", version := "2" }]]]

def noting : Machine String (List String) where
  value env
    | .ident name => env name
    | _ => "text"
  truth env _ := env "order" == "11"
  items _ _ := ["9", "11"]
  call _ method _ := fun calls =>
    if calls.length < 3 then (some method, method :: calls) else (none, calls)

theorem reviewFlow_compiles : ∃ program, compile "groups" reviewFlow = .ok program := by
  have passed : ∃ m c, Pass "groups" {} .empty reviewFlow m c := by
    refine ⟨_, _, .forEach ?loop rfl
      (.ifThen ?order (.code ?big (.nil _ _))
        (.elseIf ?limit (.nil _ _) ?afterIf
          (.otherwise (.component ?other (.nil _ _)) ?afterElseIf (.nil _ _))))
      (.nil _ _)⟩
    case loop => exact ⟨by decide, ⟨_, rfl⟩, _, rfl, by decide⟩
    case order => exact ⟨⟨_, rfl⟩, ⟨_, rfl⟩⟩
    case limit => exact ⟨⟨_, rfl⟩, ⟨_, rfl⟩⟩
    case big =>
      exact ⟨by decide, (fun _ member => by cases member), fun _ given => by cases given; decide⟩
    case other =>
      exact ⟨by decide, by decide, by decide, (fun _ member => by cases member),
        fun _ given => by cases given⟩
    case afterIf => exact List.cons_ne_nil _ _
    case afterElseIf => exact List.cons_ne_nil _ _
  obtain ⟨m, c, p⟩ := passed
  exact ⟨_, compile_ok_iff.mpr ⟨_, _, compileList_ok_iff.mpr ⟨m, p, rfl⟩, rfl⟩⟩

theorem reviewFlow_keeps_meaning : ∃ program, compile "groups" reviewFlow = .ok program ∧
    ∃ body c, compileList "groups" {} reviewFlow = .ok (body, c) ∧
      program = ⟨printScript (script c.manifest body), c.manifest⟩ ∧
      ∀ (env : Env String) (calls : List String),
        (noting.runStmts body env).run.run calls =
          (noting.runNodes reviewFlow env).run.run calls := by
  obtain ⟨program, compiled⟩ := reviewFlow_compiles
  exact ⟨program, compiled, compile_keeps_meaning noting compiled⟩

end StepFlow.Compile
