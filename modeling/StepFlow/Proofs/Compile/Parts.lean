import StepFlow.Proofs.Compile.Loading
import StepFlow.Proofs.Compile.Scope

/-!
What the statements of a compiled body are made of. Read in the order of the text, the names that
they bind and the expressions in them are those of the nodes of the flow, each node followed by its
own body. Whether an output is declared or assigned makes no difference, nor does the merging of
branches, since the links of a chain keep their order.
-/
namespace StepFlow.Compile
open StepFlow.Flow Script

inductive Part where
  | binds (name : String)
  | value (e : Expr)

mutual

def stmtParts : Stmt → List Part
  | .const name init => [.binds name, .value init]
  | .declare name init => [.binds name, .value init]
  | .assign name value => [.binds name, .value value]
  | .expr value => [.value value]
  | .ifElse test consequent alternate =>
    .value test :: (bodyParts consequent ++ elseParts alternate)
  | .block body => bodyParts body
  | .forOf binding iterable body => .binds binding :: .value iterable :: bodyParts body

def elseParts : Option Stmt → List Part
  | none => []
  | some stmt => stmtParts stmt

def bodyParts : List Stmt → List Part
  | [] => []
  | stmt :: stmts => stmtParts stmt ++ bodyParts stmts

end

def flatten : List Node → List Node
  | [] => []
  | node :: nodes => node :: (flatten node.body ++ flatten nodes)
termination_by nodes => sizeOf nodes
decreasing_by
  all_goals first | exact inner_size node nodes | exact rest_size node nodes

def OutputArg.part (o : OutputArg) : Part := .binds o.key

def StepCall.parts (s : StepCall) (target : Expr) : List Part :=
  (s.output.map OutputArg.part).toList ++ [.value (s.invocation target)]

def Node.parts : Node → List Part
  | .code s => (CodeStep.call s).parts (CodeStep.target s)
  | .component s => (ComponentStep.call s).parts (ComponentStep.target s)
  | .ifThen condition _ => [.value (Condition.test condition)]
  | .elseIf condition _ => [.value (Condition.test condition)]
  | .otherwise .. => []
  | .forEach l _ => (l.binding.map OutputArg.part).toList ++ [.value (Loop.iterable l)]

def flowParts (nodes : List Node) : List Part := (flatten nodes).flatMap Node.parts

def Link.parts : Link → List Part
  | .conditional test body => .value test :: bodyParts body
  | .otherwise body => bodyParts body

theorem bodyParts_append (first second : List Stmt) :
    bodyParts (first ++ second) = bodyParts first ++ bodyParts second := by
  induction first with
  | nil => rfl
  | cons stmt stmts ih => simp [bodyParts, ih]

theorem bodyParts_toList (stmt : Option Stmt) : bodyParts stmt.toList = elseParts stmt := by
  cases stmt <;> simp [bodyParts, elseParts]

theorem flowParts_cons (node : Node) (nodes : List Node) :
    flowParts (node :: nodes) = Node.parts node ++ (flowParts node.body ++ flowParts nodes) := by
  simp [flowParts, flatten]

theorem modules_flatten (nodes : List Node) :
    modules nodes = (flatten nodes).filterMap Node.module? := by
  induction nodes using flatten.induct with
  | case1 => simp [modules, flatten]
  | case2 node nodes ihBody ih =>
    rw [modules, flatten, ihBody, ih]
    cases module : Node.module? node <;> simp [module]

section
variable {m m' : Merger} {l : Link} {stmt : Stmt} {links : List Link}

theorem nest_parts (pending : Pending links) (l : Link) :
    elseParts (nest (links ++ [l])) = elseParts (nest links) ++ l.parts := by
  induction links with
  | nil => cases l <;> simp [nest, elseParts, stmtParts, Link.parts]
  | cons first links ih =>
    have ih := ih fun l member => pending l (List.mem_cons_of_mem first member)
    cases first with
    | conditional test body => simp [nest, elseParts, stmtParts, ih]
    | otherwise body => cases pending (.otherwise body) List.mem_cons_self

theorem done_parts (m : Merger) :
    bodyParts m.done = bodyParts m.emitted ++ elseParts (nest m.chain) := by
  rw [Merger.done, Merger.flush, bodyParts_append, bodyParts_toList]

theorem empty_parts : bodyParts Merger.empty.done = [] := rfl

theorem push_parts (m : Merger) (stmt : Stmt) :
    bodyParts (m.push stmt).done = bodyParts m.done ++ stmtParts stmt := by
  simp [push_done, bodyParts_append, bodyParts]

theorem link_parts (pending : Pending m.chain) (l : Link) :
    bodyParts (m.link l).done = bodyParts m.done ++ l.parts := by
  rw [done_parts, done_parts, Merger.link, nest_parts pending, List.append_assoc]

theorem statement_parts (s : StepCall) (declared : List String) (target : Expr) :
    stmtParts (s.statement declared target) = s.parts target := by
  unfold StepCall.statement StepCall.parts
  cases s.output with
  | none => rfl
  | some o => dsimp only; split <;> rfl

end

/-- A pass adds the parts of its nodes, in the order of the text. -/
theorem pass_parts {groupRoot : String} {c c' : Context} {m m' : Merger} {nodes : List Node}
    (p : Pass groupRoot c m nodes m' c') : Pending m.chain →
    bodyParts m'.done = bodyParts m.done ++ flowParts nodes := by
  induction p with
  | nil c m => simp [flowParts, flatten]
  | ifThen valid inner rest ihBody ih =>
    intro pending
    rw [ih (pending_link pending_nil _ _), open_done, push_parts, flowParts_cons, stmtParts,
      ihBody pending_nil, empty_parts]
    simp [elseParts, Node.parts, Node.body]
  | elseIf valid inner chained rest ihBody ih =>
    intro pending
    rw [ih (pending_link pending _ _), link_parts pending, flowParts_cons, Link.parts,
      ihBody pending_nil, empty_parts]
    simp [Node.parts, Node.body]
  | otherwise inner chained rest ihBody ih =>
    intro pending
    rw [ih pending_nil, flush_done, link_parts pending, flowParts_cons, Link.parts,
      ihBody pending_nil, empty_parts]
    simp [Node.parts, Node.body]
  | forEach valid binding inner rest ihBody ih =>
    intro pending
    rw [ih pending_nil, push_parts, flowParts_cons, stmtParts, ihBody pending_nil,
      empty_parts]
    simp [Node.parts, Node.body, binding, OutputArg.part]
  | component valid rest ih =>
    intro pending
    rw [ih pending_nil, push_parts, flowParts_cons, statement_parts]
    simp [Node.parts, Node.body, flowParts, flatten]
  | code valid rest ih =>
    intro pending
    rw [ih pending_nil, push_parts, flowParts_cons, statement_parts]
    simp [Node.parts, Node.body, flowParts, flatten]

theorem compileList_parts {groupRoot : String} {c c' : Context} {nodes : List Node}
    {body : List Stmt} (list : compileList groupRoot c nodes = .ok (body, c')) :
    bodyParts body = flowParts nodes := by
  obtain ⟨m, p, rfl⟩ := compileList_ok_iff.mp list
  exact pass_parts p pending_nil

end StepFlow.Compile
