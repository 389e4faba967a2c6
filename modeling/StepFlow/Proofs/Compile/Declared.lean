import StepFlow.Proofs.Compile.Calls
import StepFlow.Proofs.Compile.Landing

/-!
Which step declares an output. The statements in a compiled body that have no parts of their own are
those of its steps, one for each, in the order of the text, however deep the steps stand and however
late their chains are emitted. A step without an output only awaits its call. Of the steps with one
output the first declares it and all others assign it, so each output is declared just once.
-/
namespace StepFlow.Compile
open StepFlow.Flow Script

mutual

def stmtLeaves : Stmt → List Stmt
  | .const name init => [.const name init]
  | .declare name init => [.declare name init]
  | .assign name value => [.assign name value]
  | .expr value => [.expr value]
  | .ifElse _ consequent alternate => bodyLeaves consequent ++ elseLeaves alternate
  | .block body => bodyLeaves body
  | .forOf _ _ body => bodyLeaves body

def elseLeaves : Option Stmt → List Stmt
  | none => []
  | some stmt => stmtLeaves stmt

def bodyLeaves : List Stmt → List Stmt
  | [] => []
  | stmt :: stmts => stmtLeaves stmt ++ bodyLeaves stmts

end

def declared? : Stmt → Option String
  | .declare name _ => some name
  | _ => none

/-- The statement for a step with the output `key` behind steps with the outputs `past`. -/
def placed (past : List (Option String)) (key : Option String) (call : Invocation) : Stmt :=
  match key with
  | none => .expr call.awaited
  | some key =>
    if past.contains (some key) then .assign key call.awaited else .declare key call.awaited

def stepCalls (nodes : List Node) : List (Option String × Invocation) :=
  (flatten nodes).filterMap Node.step?

def placedSteps (past : List (Option String)) : List (Option String × Invocation) → List Stmt
  | [] => []
  | (key, call) :: steps => placed past key call :: placedSteps (past ++ [key]) steps

section
variable {past : List (Option String)} {steps : List (Option String × Invocation)} {m : Merger}

theorem bodyLeaves_append (first second : List Stmt) :
    bodyLeaves (first ++ second) = bodyLeaves first ++ bodyLeaves second := by
  induction first with
  | nil => rfl
  | cons stmt stmts ih => simp [bodyLeaves, ih]

theorem bodyLeaves_toList (stmt : Option Stmt) : bodyLeaves stmt.toList = elseLeaves stmt := by
  cases stmt <;> simp [bodyLeaves, elseLeaves]

theorem nest_leaves {links : List Link} (pending : Pending links) (l : Link) :
    elseLeaves (nest (links ++ [l])) = elseLeaves (nest links) ++ bodyLeaves l.body := by
  induction links with
  | nil => cases l <;> simp [nest, elseLeaves, stmtLeaves, Link.body]
  | cons first links ih =>
    have ih := ih fun l member => pending l (List.mem_cons_of_mem first member)
    cases first with
    | conditional test body => simp [nest, elseLeaves, stmtLeaves, ih]
    | otherwise body => cases pending (.otherwise body) List.mem_cons_self

theorem empty_leaves : bodyLeaves Merger.empty.done = [] := rfl

theorem push_leaves (m : Merger) (stmt : Stmt) :
    bodyLeaves (m.push stmt).done = bodyLeaves m.done ++ stmtLeaves stmt := by
  simp [push_done, bodyLeaves_append, bodyLeaves]

theorem link_leaves (pending : Pending m.chain) (l : Link) :
    bodyLeaves (m.link l).done = bodyLeaves m.done ++ bodyLeaves l.body := by
  simp only [Merger.done, Merger.flush, bodyLeaves_append, bodyLeaves_toList, Merger.link,
    nest_leaves pending, List.append_assoc]

theorem statement_placed {c : Context} (d : Declares c past) (s : StepCall) (target : Expr) :
    s.statement c.declared target =
      placed past s.key (runCall target s.inputs (stepInfo s.id s.name s.policy)) := by
  unfold StepCall.statement placed StepCall.key
  cases s.output with
  | none => rfl
  | some o =>
    by_cases seen : some o.key ∈ past
    · simp only [List.contains_iff_mem, d o.key, seen, Option.map_some, ↓reduceIte]
      rfl
    · simp only [List.contains_iff_mem, d o.key, seen, Option.map_some, ↓reduceIte]
      rfl

theorem placed_leaf (past : List (Option String)) (key : Option String) (call : Invocation) :
    stmtLeaves (placed past key call) = [placed past key call] := by
  unfold placed
  cases key with
  | none => rfl
  | some key => by_cases seen : some key ∈ past <;> simp [seen, stmtLeaves]

theorem placedSteps_append (first second : List (Option String × Invocation)) :
    placedSteps past (first ++ second) = placedSteps past first ++
      placedSteps (past ++ first.map Prod.fst) second := by
  induction first generalizing past with
  | nil => simp [placedSteps]
  | cons step steps ih => simp [placedSteps, ih]

theorem stepCalls_step {node : Node} {nodes : List Node} {step : Option String × Invocation}
    (stepped : Node.step? node = some step) :
    stepCalls (node :: nodes) = step :: stepCalls nodes := by
  simp [stepCalls, flatten, stepped, (step_body stepped).1]

theorem stepCalls_inner {node : Node} {nodes : List Node} (inner : Node.step? node = none) :
    stepCalls (node :: nodes) = stepCalls node.body ++ stepCalls nodes := by
  simp [stepCalls, flatten, inner]

theorem stepKeys_calls (nodes : List Node) :
    stepKeys nodes = (stepCalls nodes).map Prod.fst := by
  induction nodes using stepKeys.induct with
  | case1 => simp [stepKeys, stepCalls, flatten]
  | case2 node nodes step stepped ih => simp [stepKeys, stepCalls_step stepped, stepped, ih]
  | case3 node nodes inner ihBody ih =>
    rw [stepKeys_inner inner, stepCalls_inner inner, ihBody, ih, List.map_append]

/-- From one merger to another the steps of nodes have been placed behind steps with the outputs
`past`. What is held back counts as emitted. -/
structure Places (m m' : Merger) (c' : Context) (past : List (Option String)) (nodes : List Node) :
    Prop where
  leaves : bodyLeaves m'.done = bodyLeaves m.done ++ placedSteps past (stepCalls nodes)
  declares : Declares c' (past ++ stepKeys nodes)

theorem Places.step {between m' : Merger} {c' : Context} {node : Node} {nodes : List Node}
    {step : Option String × Invocation} (stepped : Node.step? node = some step)
    (own : bodyLeaves between.done = bodyLeaves m.done ++ [placed past step.1 step.2])
    (rest : Places between m' c' (past ++ [step.1]) nodes) :
    Places m m' c' past (node :: nodes) where
  leaves := by
    rw [rest.leaves, own, stepCalls_step stepped, List.append_assoc]
    rfl
  declares := by
    have keys : stepKeys (node :: nodes) = step.1 :: stepKeys nodes := by simp [stepKeys, stepped]
    rw [keys, List.append_cons]
    exact rest.declares

theorem Places.inner {between m' : Merger} {c' : Context} {node : Node} {nodes : List Node}
    (inner : Node.step? node = none)
    (own : bodyLeaves between.done = bodyLeaves m.done ++ placedSteps past (stepCalls node.body))
    (rest : Places between m' c' (past ++ stepKeys node.body) nodes) :
    Places m m' c' past (node :: nodes) where
  leaves := by
    rw [rest.leaves, own, stepCalls_inner inner, placedSteps_append, stepKeys_calls,
      List.append_assoc]
  declares := by
    rw [stepKeys_inner inner, ← List.append_assoc]
    exact rest.declares

end

/-- A pass adds the statements of its steps, each told by the outputs of those before it. -/
theorem pass_places {groupRoot : String} {c c' : Context} {m m' : Merger} {nodes : List Node}
    (p : Pass groupRoot c m nodes m' c') : ∀ {past}, Pending m.chain → Declares c past →
    Places m m' c' past nodes := by
  induction p with
  | nil c m =>
    intro past pending d
    constructor
    · simp [stepCalls, flatten, placedSteps]
    · simpa [stepKeys] using d
  | ifThen valid inner rest ihBody ih =>
    intro past pending d
    have body := ihBody pending_nil d
    refine .inner rfl ?_ (ih (pending_link pending_nil _ _) body.declares)
    rw [open_done, push_leaves, stmtLeaves, body.leaves, empty_leaves]
    simp [elseLeaves, Node.body]
  | elseIf valid inner chained rest ihBody ih =>
    intro past pending d
    have body := ihBody pending_nil d
    refine .inner rfl ?_ (ih (pending_link pending _ _) body.declares)
    rw [link_leaves pending, Link.body, body.leaves, empty_leaves]
    rfl
  | otherwise inner chained rest ihBody ih =>
    intro past pending d
    have body := ihBody pending_nil d
    refine .inner rfl ?_ (ih pending_nil body.declares)
    rw [flush_done, link_leaves pending, Link.body, body.leaves, empty_leaves]
    rfl
  | forEach valid binding inner rest ihBody ih =>
    intro past pending d
    have body := ihBody pending_nil d
    refine .inner rfl ?_ (ih pending_nil body.declares)
    rw [push_leaves, stmtLeaves, body.leaves, empty_leaves]
    rfl
  | @component c c' m m' s nodes valid rest ih =>
    intro past pending d
    refine .step rfl ?_ (ih pending_nil (afterStep_declares d (withGroup_declared groupRoot c s)))
    rw [push_leaves, statement_placed d, placed_leaf]
    rfl
  | @code c c' m m' s nodes valid rest ih =>
    intro past pending d
    refine .step rfl ?_ (ih pending_nil (afterStep_declares d (withCode_declared c s)))
    rw [push_leaves, statement_placed d, placed_leaf]
    rfl

theorem compileList_places {groupRoot : String} {c' : Context} {nodes : List Node}
    {body : List Stmt} (list : compileList groupRoot {} nodes = .ok (body, c')) :
    bodyLeaves body = placedSteps [] (stepCalls nodes) := by
  obtain ⟨m, p, rfl⟩ := compileList_ok_iff.mp list
  have nothing : Declares {} [] := fun key => by simp
  exact (pass_places p pending_nil nothing).leaves

section
variable {past : List (Option String)} {steps : List (Option String × Invocation)}

theorem placedSteps_get (past : List (Option String)) (steps : List (Option String × Invocation))
    (i : Nat) : (placedSteps past steps)[i]? = steps[i]?.map fun step =>
      placed (past ++ (steps.take i).map Prod.fst) step.1 step.2 := by
  induction steps generalizing past i with
  | nil => simp [placedSteps]
  | cons step steps ih =>
    cases i with
    | zero => simp [placedSteps]
    | succ i => simp [placedSteps, ih]

theorem placedSteps_length (past : List (Option String))
    (steps : List (Option String × Invocation)) :
    (placedSteps past steps).length = steps.length := by
  induction steps generalizing past with
  | nil => rfl
  | cons step steps ih => simp [placedSteps, ih]

theorem placed_declared (key : Option String) (call : Invocation) :
    declared? (placed past key call) = if key ∈ past then none else key := by
  unfold placed
  cases key with
  | none => simp [declared?]
  | some key => by_cases seen : some key ∈ past <;> simp [seen, declared?]

theorem declared_cons (stmt : Stmt) (stmts : List Stmt) (key : String) :
    ((stmt :: stmts).filterMap declared?).count key =
      (if declared? stmt = some key then 1 else 0) + (stmts.filterMap declared?).count key := by
  cases declares : declared? stmt with
  | none => simp [declares]
  | some name => simp [declares, List.count_cons, Nat.add_comm]

theorem placedSteps_declared (past : List (Option String))
    (steps : List (Option String × Invocation)) (key : String) :
    ((placedSteps past steps).filterMap declared?).count key =
      if some key ∉ past ∧ some key ∈ steps.map Prod.fst then 1 else 0 := by
  induction steps generalizing past with
  | nil => simp [placedSteps]
  | cons step steps ih =>
    obtain ⟨output, call⟩ := step
    rw [placedSteps, declared_cons, placed_declared, ih]
    by_cases seen : some key ∈ past
    · have kept : (if output ∈ past then none else output) ≠ some key := by grind
      simp [seen, kept]
    · by_cases own : output = some key
      · simp [own, seen]
      · have other : (if output ∈ past then none else output) ≠ some key := by grind
        have unseen : some key ∉ past ++ [output] := by
          simpa [seen] using Ne.symm own
        have later : some key ∈ (output :: steps.map Prod.fst) ↔ some key ∈ steps.map Prod.fst := by
          simp [@eq_comm _ (some key) output, own]
        simp only [other, if_false, Nat.zero_add, unseen, seen, not_false_eq_true, true_and,
          List.map_cons, later]

end

/-- Every statement of a compiled body that binds a name or makes a call is that of a step, and
tells which step has its output first. -/
structure DeclaredOnce (nodes : List Node) (body : List Stmt) : Prop where
  only : (bodyLeaves body).length = (stepCalls nodes).length
  first : ∀ {i : Nat} {key : String} {call : Invocation},
    (stepCalls nodes)[i]? = some (some key, call) → some key ∉ (stepKeys nodes).take i →
    (bodyLeaves body)[i]? = some (.declare key call.awaited)
  later : ∀ {i : Nat} {key : String} {call : Invocation},
    (stepCalls nodes)[i]? = some (some key, call) → some key ∈ (stepKeys nodes).take i →
    (bodyLeaves body)[i]? = some (.assign key call.awaited)
  bare : ∀ {i : Nat} {call : Invocation}, (stepCalls nodes)[i]? = some (none, call) →
    (bodyLeaves body)[i]? = some (.expr call.awaited)
  once : ∀ key, some key ∈ stepKeys nodes → ((bodyLeaves body).filterMap declared?).count key = 1

/-- In a compiled flow the first step with an output declares it, all later ones assign it, and
nothing else binds a name. -/
theorem outputs_declared_once {groupRoot : String} {nodes : List Node} {program : Program}
    (compiled : compile groupRoot nodes = .ok program) :
    ∃ body c, compileList groupRoot {} nodes = .ok (body, c) ∧
      program = ⟨printScript (script c.manifest body), c.manifest⟩ ∧ DeclaredOnce nodes body := by
  obtain ⟨body, c, list, printed⟩ := compile_ok_iff.mp compiled
  refine ⟨body, c, list, printed, ?_⟩
  have leaves := compileList_places list
  have leaf : ∀ {i : Nat} {key : Option String} {call : Invocation},
      (stepCalls nodes)[i]? = some (key, call) →
      (bodyLeaves body)[i]? = some (placed ((stepKeys nodes).take i) key call) := by
    intro i key call step
    rw [leaves, placedSteps_get, step, stepKeys_calls, List.map_take]
    rfl
  refine ⟨?_, ?_, ?_, ?_, ?_⟩
  · rw [leaves, placedSteps_length]
  · intro i key call step unseen
    rw [leaf step]
    simp [placed, unseen]
  · intro i key call step seen
    rw [leaf step]
    simp [placed, seen]
  · intro i call step
    rw [leaf step, placed]
  · intro key member
    rw [leaves, placedSteps_declared, ← stepKeys_calls]
    simp [member]

theorem lateFlow_declared_once : ∃ program, compile "" lateFlow = .ok program ∧
    ∃ body c, compileList "" {} lateFlow = .ok (body, c) ∧
      program = ⟨printScript (script c.manifest body), c.manifest⟩ ∧
      DeclaredOnce lateFlow body := by
  obtain ⟨m, c, p, _⟩ := lateFlow_passes
  have compiled := compile_ok_iff.mpr ⟨_, _, compileList_ok_iff.mpr ⟨m, p, rfl⟩, rfl⟩
  exact ⟨_, compiled, outputs_declared_once compiled⟩

end StepFlow.Compile
