import StepFlow.Script.Printer

/-!
The text of each form, as an equation. These hold by computation; a rewrite with the equations of
the mutual definition itself would have to find them out first.
-/
namespace StepFlow.Script

variable (depth : Nat)

section
variable (e : Expr) (es : List Expr) (body : List Stmt)

theorem print_array : printExpr depth (.array es) = '[' :: printItems depth es ++ [']'] := rfl

theorem print_object (prop : PropKey × Expr) (props : List (PropKey × Expr)) :
    printExpr depth (.object (prop :: props)) =
      '{' :: ' ' :: printProp depth prop ++ printMoreProps depth props ++ [' ', '}'] := rfl

theorem print_member (property : String) : printExpr depth (.member e property) =
    asOperand e (printExpr depth e) ++ '.' :: property.toList := rfl

theorem print_call : printExpr depth (.call e es) =
    asOperand e (printExpr depth e) ++ '(' :: printItems depth es ++ [')'] := rfl

theorem print_await : printExpr depth (.await e) =
    "await ".toList ++ asOperand e (printExpr depth e) := rfl

theorem print_binary (comparison : Flow.Comparison) (right : Expr) :
    printExpr depth (.binary comparison e right) =
      asOperand e (printExpr depth e) ++ ' ' :: comparison.symbol.toList ++
        ' ' :: asOperand right (printExpr depth right) := rfl

theorem print_function : printExpr depth (.asyncFunction body) =
    "async function () ".toList ++ printBlock depth body := rfl

end

section
variable (name : String) (e : Expr) (body : List Stmt)

theorem print_const : printStmt depth (.const name e) =
    "const ".toList ++ name.toList ++ " = ".toList ++ printExpr depth e ++ [';'] := rfl

theorem print_declare : printStmt depth (.declare name e) =
    "let ".toList ++ name.toList ++ " = ".toList ++ printExpr depth e ++ [';'] := rfl

theorem print_assign : printStmt depth (.assign name e) =
    name.toList ++ " = ".toList ++ printExpr depth e ++ [';'] := rfl

theorem print_expr : printStmt depth (.expr e) = printExpr depth e ++ [';'] := rfl

theorem print_if (alternate : Option Stmt) : printStmt depth (.ifElse e body alternate) =
    "if (".toList ++ printExpr depth e ++ ") ".toList ++ printBlock depth body ++
      printElse depth alternate := rfl

theorem print_block : printStmt depth (.block body) = printBlock depth body := rfl

theorem print_for : printStmt depth (.forOf name e body) =
    "for (const ".toList ++ name.toList ++ " of ".toList ++ printExpr depth e ++ ") ".toList ++
      printBlock depth body := rfl

theorem print_else (stmt : Stmt) :
    printElse depth (some stmt) = " else ".toList ++ printStmt depth stmt := rfl

theorem print_lines_cons (stmt : Stmt) (stmts : List Stmt) : printLines depth (stmt :: stmts) =
    indent depth ++ printStmt depth stmt ++ '\n' :: printLines depth stmts := rfl

theorem print_body (stmt : Stmt) (stmts : List Stmt) : printBlock depth (stmt :: stmts) =
    '{' :: '\n' :: printLines (depth + 1) (stmt :: stmts) ++ indent depth ++ ['}'] := by
  rw [print_lines_cons]
  simp [printBlock]

end

end StepFlow.Script
