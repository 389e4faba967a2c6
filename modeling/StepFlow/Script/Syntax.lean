import StepFlow.Flow.Basic
import StepFlow.Script.Name

/-!
Syntax trees of scripts: the expressions and statements that a compiled flow needs and no more.
A numeral keeps its spelling, since `NaN`, `1e3` and `007` are never computed with.
-/
namespace StepFlow.Script
open StepFlow.Flow (Comparison)

inductive PropKey where
  | bare (name : String)
  | quoted (text : String)
  deriving DecidableEq, Repr, Inhabited

def PropKey.ofName (name : String) : PropKey :=
  if isIdentifier name then .bare name else .quoted name

mutual

inductive Expr where
  | ident (name : String)
  | str (value : String)
  | num (spelling : String)
  | bool (value : Bool)
  | null
  | array (items : List Expr)
  | object (props : List (PropKey × Expr))
  | member (object : Expr) (property : String)
  | call (callee : Expr) (args : List Expr)
  | await (inner : Expr)
  | binary (comparison : Comparison) (left right : Expr)
  | asyncFunction (body : List Stmt)

inductive Stmt where
  | const (name : String) (init : Expr)
  | declare (name : String) (init : Expr)
  | assign (name : String) (value : Expr)
  | expr (value : Expr)
  | ifElse (test : Expr) (consequent : List Stmt) (alternate : Option Stmt)
  | block (body : List Stmt)
  | forOf (binding : String) (iterable : Expr) (body : List Stmt)

end

deriving instance Repr, Inhabited for Expr, Stmt

namespace Expr

def undefined : Expr := .ident "undefined"

def require (path : String) : Expr := .call (.ident "require") [.str path]

/-- Whether an expression binds looser than a member access or a call on it. -/
def isLoose : Expr → Bool
  | .await _ => true
  | .binary .. => true
  | .asyncFunction _ => true
  | .object _ => true
  | _ => false

end Expr

end StepFlow.Script
