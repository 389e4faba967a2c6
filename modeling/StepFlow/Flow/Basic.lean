/-!
Flows: lists of nodes, where branches and loops carry further lists of nodes. A step calls a
module; its inputs are texts, read by where they come from and by their declared type. The shape
of an output describes what a step returns; only its key matters to compilation.
-/
namespace StepFlow.Flow

/-- Where an input or an operand takes its value from: typed in by the user, bound by an earlier
node and perhaps followed by fields, an entry of the global registry, or an identifier as it stands.
-/
inductive Source where
  | literal
  | priorOutput
  | globalEntry
  | identifier
  deriving DecidableEq, Repr, Inhabited

inductive ValueType where
  | string
  | number
  | boolean
  | object
  | list
  | unknown
  deriving DecidableEq, Repr, Inhabited

inductive ErrorPolicy where
  | stop
  | ignore
  | retry
  deriving DecidableEq, Repr, Inhabited

def ErrorPolicy.wireName : ErrorPolicy → String
  | .stop => "stop"
  | .ignore => "ignore"
  | .retry => "retry"

inductive Comparison where
  | gt
  | lt
  | ge
  | le
  | eq
  | ne
  deriving DecidableEq, Repr, Inhabited

def Comparison.symbol : Comparison → String
  | .gt => ">"
  | .lt => "<"
  | .ge => ">="
  | .le => "<="
  | .eq => "=="
  | .ne => "!="

structure InputArg where
  key : String
  source : Source
  type : ValueType := .unknown
  value : String := ""
  name : Option String := none
  deriving DecidableEq, Repr, Inhabited

structure OutputField where
  key : String
  type : ValueType := .unknown
  deriving DecidableEq, Repr, Inhabited

/-- The shape of a value: a type without parts, an object with fields, or a list of one shape. -/
inductive Shape where
  | basic (type : ValueType)
  | object (fields : List OutputField)
  | list (element : Shape)
  deriving DecidableEq, Repr, Inhabited

structure OutputArg where
  key : String
  shape : Shape
  deriving DecidableEq, Repr, Inhabited

structure CodeStep where
  id : String
  name : String := ""
  source : String
  policy : ErrorPolicy := .stop
  inputs : List InputArg := []
  output : Option OutputArg := none
  deriving DecidableEq, Repr, Inhabited

structure ComponentStep where
  id : String
  name : String := ""
  group : String
  function : String
  version : String
  policy : ErrorPolicy := .stop
  inputs : List InputArg := []
  output : Option OutputArg := none
  deriving DecidableEq, Repr, Inhabited

structure Operand where
  source : Source
  value : String := ""
  deriving DecidableEq, Repr, Inhabited

structure Condition where
  id : String := ""
  left : Operand
  comparison : Comparison
  right : Operand
  deriving DecidableEq, Repr, Inhabited

/-- The head of a loop; the key of `binding` names the loop variable. -/
structure Loop where
  id : String := ""
  items : Operand
  binding : Option OutputArg := none
  deriving DecidableEq, Repr, Inhabited

inductive Node where
  | code (step : CodeStep)
  | component (step : ComponentStep)
  | ifThen (condition : Condition) (body : List Node)
  | elseIf (condition : Condition) (body : List Node)
  | otherwise (id : String) (body : List Node)
  | forEach (loop : Loop) (body : List Node)
  deriving Repr, Inhabited

namespace Node

def idText : Node → String
  | code step => step.id
  | component step => step.id
  | ifThen condition _ => condition.id
  | elseIf condition _ => condition.id
  | otherwise id _ => id
  | forEach loop _ => loop.id

def body : Node → List Node
  | code _ => []
  | component _ => []
  | ifThen _ body => body
  | elseIf _ body => body
  | otherwise _ body => body
  | forEach _ body => body

end Node

/-- An id as a label: the empty text labels nothing. -/
def label (id : String) : Option String := if id.isEmpty then none else some id

def Node.id? (node : Node) : Option String := label node.idText

namespace InputArg

def ofLiteral (key : String) (type : ValueType) (value : String) : InputArg where
  key
  source := .literal
  type
  value

def ofOutput (key value : String) : InputArg where
  key
  source := .priorOutput
  value

end InputArg

def OutputArg.basic (key : String) (type : ValueType) : OutputArg := ⟨key, .basic type⟩

end StepFlow.Flow
