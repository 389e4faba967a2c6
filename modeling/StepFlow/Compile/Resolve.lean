import StepFlow.Script.Literal

/-!
Values of inputs and operands. A value typed in by the user is read by its type; any other value
names a binding, and an empty name stands for `undefined`.
-/
namespace StepFlow.Compile
open StepFlow.Flow Script Text

inductive Error where
  | branchOrder (node : Option String)
  | invalidLiteral (node : Option String) (error : Literal.Error)
  | missingField (node : Option String) (field : String)
  | invalidIdentifier (node : Option String) (name : String)
  deriving DecidableEq, Repr

namespace Error

def node? : Error → Option String
  | branchOrder node => node
  | invalidLiteral node _ => node
  | missingField node _ => node
  | invalidIdentifier node _ => node

def place : Option String → String
  | some id => " at node '" ++ id ++ "'"
  | none => ""

def message : Error → String
  | branchOrder node => "else/elseif without preceding if" ++ place node
  | invalidLiteral node e => "invalid literal value" ++ place node ++ ": " ++ e.message
  | missingField node field => "missing required field '" ++ field ++ "'" ++ place node
  | invalidIdentifier node name => "'" ++ name ++ "' is not a valid identifier" ++ place node

end Error

def globalName : String := "global"

/-- The decimal spelling of the integer that a text begins with, after blanks and a sign. -/
def integerPrefix (raw : List Char) : List Char :=
  let s := skipBlanks raw
  let (sign, s) := match s with
    | '-' :: rest => (['-'], rest)
    | '+' :: rest => ([], rest)
    | s => ([], s)
  let digits := s.takeWhile isDecimalDigit
  match digits, digits.dropWhile (· == '0') with
  | [], _ => "NaN".toList
  | _ :: _, [] => ['0']
  | _ :: _, significant => sign ++ significant

def checkIdentifier (name : String) (node : Option String) : Except Error String :=
  if isIdentifier name then .ok name else .error (.invalidIdentifier node name)

def resolveLiteral (type : ValueType) (raw : String) (node : Option String) :
    Except Error Expr :=
  match type with
  | .list | .object =>
    if (trim raw.toList).isEmpty then .ok .undefined
    else match Literal.parse raw with
      | .ok e => .ok e
      | .error e => .error (.invalidLiteral node e)
  | .boolean => .ok (.bool (trim raw.toList == "true".toList))
  | .number => .ok (.num (String.ofList (integerPrefix raw.toList)))
  | .string | .unknown => .ok (.str raw)

def resolveFields (raw : String) (node : Option String) :
    Expr → List (List Char) → Except Error Expr
  | e, [] => .ok e
  | e, field :: fields =>
    if sanitizeChars field = field then
      resolveFields raw node (.member e (String.ofList field)) fields
    else .error (.invalidIdentifier node raw)

def resolveReference (raw : String) (node : Option String) : Except Error Expr :=
  match pieces '.' raw.toList with
  | [] => .error (.invalidIdentifier node raw)
  | head :: fields => do
    let name ← checkIdentifier (String.ofList head) node
    resolveFields raw node (.ident name) fields

/-- The expression for a value; `node` labels the errors. -/
def resolve (source : Source) (type : ValueType) (raw : String) (node : Option String) :
    Except Error Expr :=
  match source with
  | .literal => resolveLiteral type raw node
  | .priorOutput => if raw.isEmpty then .ok .undefined else resolveReference raw node
  | .globalEntry =>
    if raw.isEmpty then .ok .undefined
    else do
      let name ← checkIdentifier raw node
      return .member (.member (.ident globalName) name) "value"
  | .identifier =>
    if raw.isEmpty then .ok .undefined
    else do return .ident (← checkIdentifier raw node)

end StepFlow.Compile
