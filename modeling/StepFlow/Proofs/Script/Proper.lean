import StepFlow.Proofs.Script.Reading

/-!
Proper scripts. Whatever a proper script binds or refers to is an identifier, its numerals are
spelled as numerals are, and no field is taken of a numeral, where the point would read as a part of
the number. How numerals may be spelled is left open, since `NaN` is written for a number that could
not be read.
-/
namespace StepFlow.Script
open Text

/-- What can stand behind a point, or for a key without quotes. A digit in front does no harm. -/
def IsField (name : String) : Prop := name ≠ "" ∧ ∀ c ∈ name.toList, isWordChar c = true

def Expr.isNum : Expr → Bool
  | .num _ => true
  | _ => false

inductive ProperKey : PropKey → Prop where
  | bare {name : String} (field : IsField name) : ProperKey (.bare name)
  | quoted (text : String) : ProperKey (.quoted text)

mutual

inductive ProperExpr (numeral : List Char → Prop) : Expr → Prop where
  | ident {name : String} (identifier : isIdentifier name = true) :
      ProperExpr numeral (.ident name)
  | str (value : String) : ProperExpr numeral (.str value)
  | num {spelling : String} (spelled : numeral spelling.toList) :
      ProperExpr numeral (.num spelling)
  | bool (value : Bool) : ProperExpr numeral (.bool value)
  | null : ProperExpr numeral .null
  | array {items : List Expr} (each : ∀ e ∈ items, ProperExpr numeral e) :
      ProperExpr numeral (.array items)
  | object {props : List (PropKey × Expr)} (keys : ∀ prop ∈ props, ProperKey prop.1)
      (values : ∀ prop ∈ props, ProperExpr numeral prop.2) : ProperExpr numeral (.object props)
  | member {object : Expr} {property : String} (of : ProperExpr numeral object)
      (noNumber : object.isNum = false) (field : IsField property) :
      ProperExpr numeral (.member object property)
  | call {callee : Expr} {args : List Expr} (of : ProperExpr numeral callee)
      (each : ∀ e ∈ args, ProperExpr numeral e) : ProperExpr numeral (.call callee args)
  | await {inner : Expr} (of : ProperExpr numeral inner) : ProperExpr numeral (.await inner)
  | binary {left right : Expr} (comparison : Flow.Comparison) (first : ProperExpr numeral left)
      (second : ProperExpr numeral right) : ProperExpr numeral (.binary comparison left right)
  | asyncFunction {body : List Stmt} (each : ∀ stmt ∈ body, ProperStmt numeral stmt) :
      ProperExpr numeral (.asyncFunction body)

inductive ProperStmt (numeral : List Char → Prop) : Stmt → Prop where
  | const {name : String} {init : Expr} (identifier : isIdentifier name = true)
      (of : ProperExpr numeral init) : ProperStmt numeral (.const name init)
  | declare {name : String} {init : Expr} (identifier : isIdentifier name = true)
      (of : ProperExpr numeral init) : ProperStmt numeral (.declare name init)
  | assign {name : String} {value : Expr} (identifier : isIdentifier name = true)
      (of : ProperExpr numeral value) : ProperStmt numeral (.assign name value)
  | expr {value : Expr} (of : ProperExpr numeral value) : ProperStmt numeral (.expr value)
  | ifElse {test : Expr} {consequent : List Stmt} {alternate : Option Stmt}
      (tests : ProperExpr numeral test) (each : ∀ stmt ∈ consequent, ProperStmt numeral stmt)
      (otherwise : ∀ stmt, alternate = some stmt → ProperStmt numeral stmt) :
      ProperStmt numeral (.ifElse test consequent alternate)
  | block {body : List Stmt} (each : ∀ stmt ∈ body, ProperStmt numeral stmt) :
      ProperStmt numeral (.block body)
  | forOf {binding : String} {iterable : Expr} {body : List Stmt}
      (identifier : isIdentifier binding = true) (of : ProperExpr numeral iterable)
      (each : ∀ stmt ∈ body, ProperStmt numeral stmt) :
      ProperStmt numeral (.forOf binding iterable body)

end

def ProperBody (numeral : List Char → Prop) (body : List Stmt) : Prop :=
  ∀ stmt ∈ body, ProperStmt numeral stmt

end StepFlow.Script
