import StepFlow.Compile.Branch
import StepFlow.Compile.Manifest
import StepFlow.Compile.Resolve
import StepFlow.Script.Printer
import StepFlow.Workspace.Path

/-!
Compilation of flows. Each node becomes a statement or a link of a branch; on the way the context
collects the outputs declared and the modules needed. The program loads those modules and then
runs the statements in one asynchronous function that ends the process.
-/
namespace StepFlow.Compile
open StepFlow.Flow Script Workspace

def componentsDir : String := "components"

def globalFile : String := "global.json"

structure Context where
  declared : List String := []
  groups : List GroupDependency := []
  inlineCode : List (String × InlineCode) := []

namespace Context

def declare (c : Context) (key : String) : Context :=
  if c.declared.contains key then c else { c with declared := c.declared ++ [key] }

/-- The first dependency on a group version is kept. -/
def addGroup (c : Context) (g : GroupDependency) : Context :=
  if c.groups.any fun h => h.group == g.group && h.version == g.version then c
  else { c with groups := c.groups ++ [g] }

/-- The last code of an id is kept, at the place of the first. -/
def addInlineCode (c : Context) (id : String) (code : InlineCode) : Context :=
  { c with inlineCode := putKeyed id code c.inlineCode }

def manifest (c : Context) : Manifest := ⟨c.groups, c.inlineCode⟩

end Context

structure StepCall where
  id : String
  name : String
  policy : ErrorPolicy
  inputs : List InputArg
  output : Option OutputArg

def CodeStep.call (s : CodeStep) : StepCall := ⟨s.id, s.name, s.policy, s.inputs, s.output⟩

def ComponentStep.call (s : ComponentStep) : StepCall := ⟨s.id, s.name, s.policy, s.inputs, s.output⟩

def resolveInputs (node : Option String) : List InputArg → Except Error (List (PropKey × Expr))
  | [] => .ok []
  | input :: inputs => do
    let value ← resolve input.source input.type input.value node
    let props ← resolveInputs node inputs
    return (.ofName input.key, value) :: props

def StepCall.info (s : StepCall) : Expr :=
  .object [(.ofName "id", .str s.id), (.ofName "name", .str s.name),
    (.ofName "errorPolicy", .str s.policy.wireName)]

/-- The statement that runs a step: its result is declared the first time that its key is bound,
and assigned later on. -/
def stepStatement (c : Context) (target : Expr) (s : StepCall) :
    Except Error (Stmt × Context) := do
  let inputs ← resolveInputs (label s.id) s.inputs
  let call := Expr.await (.call (.member target "run") [.object inputs, s.info])
  match s.output with
  | none => return (.expr call, c)
  | some output =>
    let key ← checkIdentifier output.key (label s.id)
    if c.declared.contains key then return (.assign key call, c)
    else return (.declare key call, c.declare key)

def groupPath (groupRoot group version : String) : String :=
  joinPath (joinPath groupRoot group) ("v" ++ version)

def compileComponent (groupRoot : String) (c : Context) (s : ComponentStep) :
    Except Error (Stmt × Context) :=
  let node := label s.id
  if s.group.isEmpty then .error (.missingField node "group")
  else if s.version.isEmpty then .error (.missingField node "version")
  else if !isIdentifier s.function then .error (.invalidIdentifier node s.function)
  else
    let name := groupAlias s.group s.version
    let c := c.addGroup ⟨s.group, s.version, name, groupPath groupRoot s.group s.version⟩
    stepStatement c (.member (.ident name) s.function) (ComponentStep.call s)

def CodeStep.info (s : CodeStep) : StepMeta := ⟨s.id, s.name, s.policy, s.inputs, s.output⟩

def compileCode (c : Context) (s : CodeStep) : Except Error (Stmt × Context) :=
  if s.id.isEmpty then .error (.missingField none "id")
  else
    let name := codeAlias s.id
    let c := c.addInlineCode s.id ⟨name, s.source, CodeStep.info s⟩
    stepStatement c (.ident name) (CodeStep.call s)

def conditionTest (c : Condition) : Except Error Expr := do
  let left ← resolve c.left.source .string c.left.value (label c.id)
  let right ← resolve c.right.source .string c.right.value (label c.id)
  return .binary c.comparison left right

def loopStatement (l : Loop) (body : List Stmt) : Except Error Stmt :=
  let node := label l.id
  if l.items.value.isEmpty then .error (.missingField node "items")
  else match l.binding with
    | none => .error (.missingField node "output")
    | some binding => do
      let key ← checkIdentifier binding.key node
      let iterable ← resolve l.items.source .list l.items.value node
      return .forOf key iterable body

/-- Compiles siblings one after the other. The bodies of branches and loops are compiled as lists
of their own, with the same context going on through them. -/
def compileSiblings (groupRoot : String) (c : Context) (m : Merger) :
    List Node → Except Error (Merger × Context)
  | [] => .ok (m, c)
  | .ifThen condition body :: nodes => do
    let test ← conditionTest condition
    let (inner, c) ← compileSiblings groupRoot c .empty body
    compileSiblings groupRoot c (m.open test inner.flush.emitted) nodes
  | .elseIf condition body :: nodes => do
    let test ← conditionTest condition
    let (inner, c) ← compileSiblings groupRoot c .empty body
    match m.extend? test inner.flush.emitted with
    | some m => compileSiblings groupRoot c m nodes
    | none => .error (.branchOrder (label condition.id))
  | .otherwise id body :: nodes => do
    let (inner, c) ← compileSiblings groupRoot c .empty body
    match m.close? inner.flush.emitted with
    | some m => compileSiblings groupRoot c m nodes
    | none => .error (.branchOrder (label id))
  | .forEach loop body :: nodes => do
    let (inner, c) ← compileSiblings groupRoot c .empty body
    let stmt ← loopStatement loop inner.flush.emitted
    compileSiblings groupRoot c (m.push stmt) nodes
  | .component step :: nodes => do
    let (stmt, c) ← compileComponent groupRoot c step
    compileSiblings groupRoot c (m.push stmt) nodes
  | .code step :: nodes => do
    let (stmt, c) ← compileCode c step
    compileSiblings groupRoot c (m.push stmt) nodes

def compileList (groupRoot : String) (c : Context) (nodes : List Node) :
    Except Error (List Stmt × Context) := do
  let (m, c) ← compileSiblings groupRoot c .empty nodes
  return (m.flush.emitted, c)

/-- The statements that load what a manifest lists, groups before code steps, and the registry. -/
def loadStatements (m : Manifest) : List Stmt :=
  (m.groups.map fun g => Stmt.const g.name (.require g.path)) ++
    (m.inlineCode.map fun (id, code) =>
      Stmt.const code.name (.require ("./" ++ componentsDir ++ "/" ++ id))) ++
    [.const globalName (.require ("./" ++ globalFile))]

/-- The call of an asynchronous function that runs the body and ends the process. -/
def entryPoint (body : List Stmt) : Stmt :=
  .expr (.call (.asyncFunction
    (body ++ [.expr (.call (.member (.ident "process") "exit") [.num "0"])])) [])

def script (m : Manifest) (body : List Stmt) : List Stmt := loadStatements m ++ [entryPoint body]

def compile (groupRoot : String) (nodes : List Node) : Except Error Program := do
  let (body, c) ← compileList groupRoot {} nodes
  return ⟨printScript (script c.manifest body), c.manifest⟩

end StepFlow.Compile
