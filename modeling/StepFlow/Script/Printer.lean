import StepFlow.Script.Syntax
import StepFlow.Text.Quoted

/-!
The text of a script. A statement stands on a line of its own, a block indents its lines by two
blanks per level, and an operand that binds looser than its place is put in parentheses.
-/
namespace StepFlow.Script
open Text

def indent (depth : Nat) : List Char := List.replicate (2 * depth) ' '

/-- An operand's text, in parentheses where the operand binds too loosely. -/
def asOperand (e : Expr) (text : List Char) : List Char :=
  if e.isLoose then '(' :: text ++ [')'] else text

def printKey : PropKey → List Char
  | .bare name => name.toList
  | .quoted text => quote text

mutual

def printExpr (depth : Nat) : Expr → List Char
  | .ident name => name.toList
  | .str value => quote value
  | .num spelling => spelling.toList
  | .bool true => "true".toList
  | .bool false => "false".toList
  | .null => "null".toList
  | .array items => '[' :: printItems depth items ++ [']']
  | .object [] => ['{', '}']
  | .object (prop :: props) =>
    '{' :: ' ' :: printProp depth prop ++ printMoreProps depth props ++ [' ', '}']
  | .member object property =>
    asOperand object (printExpr depth object) ++ '.' :: property.toList
  | .call callee args =>
    asOperand callee (printExpr depth callee) ++ '(' :: printItems depth args ++ [')']
  | .await inner => "await ".toList ++ asOperand inner (printExpr depth inner)
  | .binary comparison left right =>
    asOperand left (printExpr depth left) ++ ' ' :: comparison.symbol.toList ++
      ' ' :: asOperand right (printExpr depth right)
  | .asyncFunction body => "async function () ".toList ++ printBlock depth body

def printItems (depth : Nat) : List Expr → List Char
  | [] => []
  | item :: items => printExpr depth item ++ printMoreItems depth items

def printMoreItems (depth : Nat) : List Expr → List Char
  | [] => []
  | item :: items => ", ".toList ++ printExpr depth item ++ printMoreItems depth items

def printProp (depth : Nat) : PropKey × Expr → List Char
  | (key, value) => printKey key ++ ": ".toList ++ printExpr depth value

def printMoreProps (depth : Nat) : List (PropKey × Expr) → List Char
  | [] => []
  | prop :: props => ", ".toList ++ printProp depth prop ++ printMoreProps depth props

def printStmt (depth : Nat) : Stmt → List Char
  | .const name init => "const ".toList ++ name.toList ++ " = ".toList ++ printExpr depth init ++ [';']
  | .declare name init => "let ".toList ++ name.toList ++ " = ".toList ++ printExpr depth init ++ [';']
  | .assign name value => name.toList ++ " = ".toList ++ printExpr depth value ++ [';']
  | .expr value => printExpr depth value ++ [';']
  | .ifElse test consequent alternate =>
    "if (".toList ++ printExpr depth test ++ ") ".toList ++ printBlock depth consequent ++
      printElse depth alternate
  | .block body => printBlock depth body
  | .forOf binding iterable body =>
    "for (const ".toList ++ binding.toList ++ " of ".toList ++ printExpr depth iterable ++
      ") ".toList ++ printBlock depth body

def printElse (depth : Nat) : Option Stmt → List Char
  | none => []
  | some alternate => " else ".toList ++ printStmt depth alternate

def printBlock (depth : Nat) : List Stmt → List Char
  | [] => ['{', '}']
  | stmt :: stmts =>
    '{' :: '\n' :: indent (depth + 1) ++ printStmt (depth + 1) stmt ++
      '\n' :: printLines (depth + 1) stmts ++ indent depth ++ ['}']

def printLines (depth : Nat) : List Stmt → List Char
  | [] => []
  | stmt :: stmts => indent depth ++ printStmt depth stmt ++ '\n' :: printLines depth stmts

end

def Expr.print (e : Expr) : String := String.ofList (printExpr 0 e)

def printScript (body : List Stmt) : String := String.ofList (printLines 0 body)

end StepFlow.Script
