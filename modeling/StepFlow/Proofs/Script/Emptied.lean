import StepFlow.Proofs.Script.Printed
import StepFlow.Proofs.Script.Proper
import StepFlow.Proofs.Script.RoundTrip

/-!
Texts with their strings emptied. Outside of strings a proper script has no quotes, so emptying the
strings of its text gives the text of the script with its strings emptied.
-/
namespace StepFlow.Script
open Text

/-- A text with nothing left between the quotes of its strings. A backslash inside a string takes
the character behind it along, and a string has to end on its line. -/
def emptied (inside : Bool) : List Char → Option (List Char)
  | [] => if inside then none else some []
  | c :: s =>
    if inside then
      if c = '\\' then
        match s with
        | [] => none
        | _ :: s => emptied true s
      else if c = '\n' then none
      else if c = '"' then (emptied false s).map (c :: ·)
      else emptied true s
    else (emptied (c = '"') s).map (c :: ·)

def Quiet (s : List Char) : Prop := ∀ c ∈ s, c ≠ '"'

def Empties (text hollow : List Char) : Prop :=
  ∀ rest, emptied false (text ++ rest) = (emptied false rest).map (hollow ++ ·)

section
variable {s t s' t' rest : List Char} {c : Char}

theorem empties_nil : Empties [] [] := by
  intro rest
  simp

theorem empties_cons (other : c ≠ '"') (first : Empties s s') : Empties (c :: s) (c :: s') := by
  intro rest
  rw [List.cons_append, emptied.eq_def]
  simp [other, first rest, Function.comp_def]

theorem empties_append (first : Empties s s') (second : Empties t t') :
    Empties (s ++ t) (s' ++ t') := by
  intro rest
  rw [List.append_assoc, first, second, Option.map_map]
  simp [Function.comp_def]

theorem empties_quiet (quiet : Quiet s) : Empties s s := by
  induction s with
  | nil => exact empties_nil
  | cons c s ih =>
    exact empties_cons (quiet c List.mem_cons_self) (ih fun d member => quiet d (by simp [member]))

theorem emptied_inside (backslash : c ≠ '\\') (newline : c ≠ '\n') (quote : c ≠ '"') :
    emptied true (c :: s) = emptied true s := by
  rw [emptied.eq_def]
  simp [backslash, newline, quote]

theorem emptied_escaped : emptied true ('\\' :: c :: s) = emptied true s := by
  rw [emptied.eq_def]
  simp

theorem control_inside {n : Nat} (control : n < 0x20) :
    ∀ c ∈ [hexDigit (n / 16), hexDigit (n % 16)], c ≠ '\\' ∧ c ≠ '\n' ∧ c ≠ '"' := by
  have each : ∀ n < 0x20, [hexDigit (n / 16), hexDigit (n % 16)].all
      (fun c => c ≠ '\\' ∧ c ≠ '\n' ∧ c ≠ '"') = true := by decide
  intro c member
  exact of_decide_eq_true (List.all_eq_true.mp (each n control) c member)

theorem emptied_escapeChar (c : Char) : emptied true (escapeChar c ++ s) = emptied true s := by
  have escaped := escapeChar_escaped c
  generalize escapeChar c = text at escaped ⊢
  cases escaped with
  | short listed => exact emptied_escaped
  | coded control =>
    have high := control_inside control _ List.mem_cons_self
    have low := control_inside control _ (List.mem_cons_of_mem _ List.mem_cons_self)
    have zero : emptied true
        ('0' :: '0' :: hexDigit (c.toNat / 16) :: hexDigit (c.toNat % 16) :: s) =
        emptied true s := by
      rw [emptied_inside (by decide) (by decide) (by decide),
        emptied_inside (by decide) (by decide) (by decide), emptied_inside high.1 high.2.1 high.2.2,
        emptied_inside low.1 low.2.1 low.2.2]
    exact emptied_escaped.trans zero
  | plain quote backslash visible =>
    have newline : c ≠ '\n' := by
      rintro rfl
      exact absurd visible (by decide)
    exact emptied_inside backslash newline quote

theorem emptied_body (value rest : List Char) :
    emptied true (escape value ++ '"' :: rest) = (emptied false rest).map ('"' :: ·) := by
  induction value with
  | nil =>
    rw [escape, List.flatMap_nil, List.nil_append, emptied.eq_def]
    simp
  | cons c value ih =>
    rw [escape, List.flatMap_cons, List.append_assoc, ← escape, emptied_escapeChar, ih]

theorem empties_quote (value : String) : Empties (quote value) (quote "") := by
  intro rest
  have body := emptied_body value.toList rest
  have written : quote value ++ rest = '"' :: (escape value.toList ++ '"' :: rest) := by
    simp [quote]
  have ends : quote "" = ['"', '"'] := rfl
  rw [written, emptied.eq_def, ends]
  simp only [body, decide_true, Bool.false_eq_true, if_false, Option.map_map]
  rfl

end

def PropKey.hollow : PropKey → PropKey
  | .bare name => .bare name
  | .quoted _ => .quoted ""

mutual

def hollowExpr : Expr → Expr
  | .ident name => .ident name
  | .str _ => .str ""
  | .num spelling => .num spelling
  | .bool value => .bool value
  | .null => .null
  | .array items => .array (hollowItems items)
  | .object props => .object (hollowProps props)
  | .member object property => .member (hollowExpr object) property
  | .call callee args => .call (hollowExpr callee) (hollowItems args)
  | .await inner => .await (hollowExpr inner)
  | .binary comparison left right => .binary comparison (hollowExpr left) (hollowExpr right)
  | .asyncFunction body => .asyncFunction (hollowBody body)

def hollowItems : List Expr → List Expr
  | [] => []
  | item :: items => hollowExpr item :: hollowItems items

def hollowProp : PropKey × Expr → PropKey × Expr
  | (key, value) => (key.hollow, hollowExpr value)

def hollowProps : List (PropKey × Expr) → List (PropKey × Expr)
  | [] => []
  | prop :: props => hollowProp prop :: hollowProps props

def hollowStmt : Stmt → Stmt
  | .const name init => .const name (hollowExpr init)
  | .declare name init => .declare name (hollowExpr init)
  | .assign name value => .assign name (hollowExpr value)
  | .expr value => .expr (hollowExpr value)
  | .ifElse test consequent alternate =>
    .ifElse (hollowExpr test) (hollowBody consequent) (hollowElse alternate)
  | .block body => .block (hollowBody body)
  | .forOf binding iterable body => .forOf binding (hollowExpr iterable) (hollowBody body)

def hollowElse : Option Stmt → Option Stmt
  | none => none
  | some stmt => some (hollowStmt stmt)

def hollowBody : List Stmt → List Stmt
  | [] => []
  | stmt :: stmts => hollowStmt stmt :: hollowBody stmts

end

section
variable {s : List Char}

theorem quiet_word (each : ∀ c ∈ s, isWordChar c = true) : Quiet s :=
  fun c member => ne_of_kind (each c member) (by decide)

theorem quiet_name {name : String} (identifier : isIdentifier name = true) : Quiet name.toList := by
  obtain ⟨_, _, _, _, each⟩ := Literal.isWord_cases (Literal.identifier_isWord identifier)
  exact quiet_word each

theorem empties_fixed (fixed : s.all (· ≠ '"') = true) : Empties s s :=
  empties_quiet (by simpa [Quiet] using fixed)

theorem empties_name {name : String} (identifier : isIdentifier name = true) :
    Empties name.toList name.toList :=
  empties_quiet (quiet_name identifier)

theorem empties_operand {e : Expr} {text : List Char} (own : Empties s text) :
    Empties (asOperand e s) (asOperand (hollowExpr e) text) := by
  have loose : (hollowExpr e).isLoose = e.isLoose := by cases e <;> rfl
  unfold asOperand
  rw [loose]
  split
  · exact empties_cons (by decide) (empties_append own (empties_fixed (by decide)))
  · exact own

end

section
variable {depth : Nat}

theorem empties_key {k : PropKey} (proper : ProperKey k) :
    Empties (printKey k) (printKey k.hollow) := by
  cases proper with
  | bare field => exact empties_quiet (quiet_word field.2)
  | quoted text => exact empties_quote text

theorem empties_items {items : List Expr}
    (each : ∀ e ∈ items, Empties (printExpr depth e) (printExpr depth (hollowExpr e))) :
    Empties (printItems depth items) (printItems depth (hollowItems items)) := by
  have more : ∀ {items : List Expr},
      (∀ e ∈ items, Empties (printExpr depth e) (printExpr depth (hollowExpr e))) →
        Empties (printMoreItems depth items) (printMoreItems depth (hollowItems items)) := by
    intro items each
    induction items with
    | nil => exact empties_nil
    | cons e items ih =>
      rw [List.forall_mem_cons] at each
      exact empties_append (empties_append (empties_fixed (by decide)) each.1)
        (ih each.2)
  cases items with
  | nil => exact empties_nil
  | cons e items =>
    rw [List.forall_mem_cons] at each
    exact empties_append each.1 (more each.2)

theorem empties_props {props : List (PropKey × Expr)}
    (each : ∀ prop ∈ props, Empties (printProp depth prop) (printProp depth (hollowProp prop))) :
    Empties (printMoreProps depth props) (printMoreProps depth (hollowProps props)) := by
  induction props with
  | nil => exact empties_nil
  | cons prop props ih =>
    rw [List.forall_mem_cons] at each
    exact empties_append (empties_append (empties_fixed (by decide)) each.1)
      (ih each.2)

theorem empties_prop {k : PropKey} {e : Expr} (proper : ProperKey k)
    (value : Empties (printExpr depth e) (printExpr depth (hollowExpr e))) :
    Empties (printProp depth (k, e)) (printProp depth (hollowProp (k, e))) :=
  empties_append (empties_append (empties_key proper) (empties_fixed (by decide)))
    value

theorem empties_bound {name name' : List Char} {e e' : List Char} (binds : Empties name name')
    (value : Empties e e') :
    Empties (name ++ " = ".toList ++ e ++ [';']) (name' ++ " = ".toList ++ e' ++ [';']) :=
  empties_append (empties_append (empties_append binds (empties_fixed (by decide))) value)
    (empties_fixed (by decide))

theorem quiet_indent (depth : Nat) : Quiet (indent depth) := by
  simp [Quiet, indent]

theorem empties_lines {body : List Stmt}
    (each : ∀ stmt ∈ body, Empties (printStmt depth stmt) (printStmt depth (hollowStmt stmt))) :
    Empties (printLines depth body) (printLines depth (hollowBody body)) := by
  induction body with
  | nil => exact empties_nil
  | cons stmt body ih =>
    rw [List.forall_mem_cons] at each
    exact empties_append (empties_append (empties_quiet (quiet_indent depth)) each.1)
      (empties_cons (by decide) (ih each.2))

theorem empties_block {body : List Stmt} (each : ∀ stmt ∈ body, ∀ depth,
    Empties (printStmt depth stmt) (printStmt depth (hollowStmt stmt))) :
    Empties (printBlock depth body) (printBlock depth (hollowBody body)) := by
  cases body with
  | nil => exact empties_cons (by decide) (empties_cons (by decide) empties_nil)
  | cons stmt body =>
    have lines : Empties (printLines (depth + 1) (stmt :: body))
        (printLines (depth + 1) (hollowBody (stmt :: body))) :=
      empties_lines fun stmt member => each stmt member (depth + 1)
    rw [hollowBody] at lines ⊢
    rw [print_body, print_body]
    have closes := empties_append (empties_quiet (quiet_indent depth))
      (@empties_cons [] [] '}' (by decide) empties_nil)
    rw [List.append_assoc, List.append_assoc]
    exact empties_cons (by decide) (empties_cons (by decide) (empties_append lines closes))

end

section
variable {depth : Nat}

theorem empties_array {items : List Expr}
    (each : ∀ e ∈ items, Empties (printExpr depth e) (printExpr depth (hollowExpr e))) :
    Empties (printExpr depth (.array items)) (printExpr depth (hollowExpr (.array items))) := by
  rw [hollowExpr, print_array, print_array]
  exact empties_append (empties_cons (by decide) (empties_items each)) (empties_fixed (by decide))

theorem empties_object {props : List (PropKey × Expr)} (keys : ∀ prop ∈ props, ProperKey prop.1)
    (values : ∀ prop ∈ props,
      Empties (printExpr depth prop.2) (printExpr depth (hollowExpr prop.2))) :
    Empties (printExpr depth (.object props)) (printExpr depth (hollowExpr (.object props))) := by
  have each : ∀ prop ∈ props,
      Empties (printProp depth prop) (printProp depth (hollowProp prop)) := by
    rintro ⟨k, v⟩ member
    exact empties_prop (keys _ member) (values _ member)
  cases props with
  | nil => exact @empties_fixed ['{', '}'] (by decide)
  | cons prop props =>
    rw [List.forall_mem_cons] at each
    rw [hollowExpr, hollowProps, print_object, print_object]
    exact empties_append
      (empties_append (empties_cons (by decide) (empties_cons (by decide) each.1))
        (empties_props each.2)) (empties_fixed (by decide))

theorem empties_call {callee : Expr} {args : List Expr}
    (of : Empties (printExpr depth callee) (printExpr depth (hollowExpr callee)))
    (each : ∀ e ∈ args, Empties (printExpr depth e) (printExpr depth (hollowExpr e))) :
    Empties (printExpr depth (.call callee args))
      (printExpr depth (hollowExpr (.call callee args))) := by
  rw [hollowExpr, print_call, print_call]
  exact empties_append (empties_append (empties_operand of)
    (empties_cons (by decide) (empties_items each))) (empties_fixed (by decide))

theorem empties_binary (comparison : Flow.Comparison) {left right : Expr}
    (first : Empties (printExpr depth left) (printExpr depth (hollowExpr left)))
    (second : Empties (printExpr depth right) (printExpr depth (hollowExpr right))) :
    Empties (printExpr depth (.binary comparison left right))
      (printExpr depth (hollowExpr (.binary comparison left right))) := by
  have symbol : Empties comparison.symbol.toList comparison.symbol.toList :=
    empties_fixed (by cases comparison <;> decide)
  rw [hollowExpr, print_binary, print_binary]
  exact empties_append (empties_append (empties_operand first) (empties_cons (by decide) symbol))
    (empties_cons (by decide) (empties_operand second))

theorem empties_if {test : Expr} {consequent : List Stmt} {alternate : Option Stmt}
    (tests : Empties (printExpr depth test) (printExpr depth (hollowExpr test)))
    (body : Empties (printBlock depth consequent) (printBlock depth (hollowBody consequent)))
    (otherwise : ∀ stmt, alternate = some stmt →
      Empties (printStmt depth stmt) (printStmt depth (hollowStmt stmt))) :
    Empties (printStmt depth (.ifElse test consequent alternate))
      (printStmt depth (hollowStmt (.ifElse test consequent alternate))) := by
  have other : Empties (printElse depth alternate) (printElse depth (hollowElse alternate)) := by
    cases alternate with
    | none => exact empties_nil
    | some stmt => exact empties_append (empties_fixed (by decide)) (otherwise stmt rfl)
  rw [hollowStmt, print_if, print_if]
  exact empties_append (empties_append (empties_append (empties_append (empties_fixed (by decide))
    tests) (empties_fixed (by decide))) body) other

theorem empties_for {binding : String} {iterable : Expr} {body : List Stmt}
    (identifier : isIdentifier binding = true)
    (of : Empties (printExpr depth iterable) (printExpr depth (hollowExpr iterable)))
    (inside : Empties (printBlock depth body) (printBlock depth (hollowBody body))) :
    Empties (printStmt depth (.forOf binding iterable body))
      (printStmt depth (hollowStmt (.forOf binding iterable body))) := by
  rw [hollowStmt, print_for, print_for]
  exact empties_append (empties_append (empties_append (empties_append (empties_append
    (empties_fixed (by decide)) (empties_name identifier)) (empties_fixed (by decide))) of)
    (empties_fixed (by decide))) inside

end

section
variable {numeral : List Char → Prop} (quiet : ∀ s, numeral s → Quiet s)
include quiet

theorem stmt_empties {stmt : Stmt} (proper : ProperStmt numeral stmt) (depth : Nat) :
    Empties (printStmt depth stmt) (printStmt depth (hollowStmt stmt)) := by
  -- over expressions and statements at once; the texts between their parts hold no quotes
  induction proper using ProperStmt.rec (motive_1 := fun e _ => ∀ depth,
    Empties (printExpr depth e) (printExpr depth (hollowExpr e))) generalizing depth with
  | ident identifier => exact empties_name identifier
  | str value => exact empties_quote value
  | num spelled => exact empties_quiet (quiet _ spelled)
  | bool value =>
    cases value
    · exact @empties_fixed "false".toList (by decide)
    · exact @empties_fixed "true".toList (by decide)
  | null => exact @empties_fixed "null".toList (by decide)
  | array _ ih => exact empties_array fun e member => ih e member _
  | object keys _ ih => exact empties_object keys fun prop member => ih prop member _
  | member _ _ field ih =>
    rw [hollowExpr, print_member, print_member]
    exact empties_append (empties_operand (ih _))
      (empties_cons (by decide) (empties_quiet (quiet_word field.2)))
  | call _ _ ih ihArgs => exact empties_call (ih _) fun e member => ihArgs e member _
  | await _ ih =>
    rw [hollowExpr, print_await, print_await]
    exact empties_append (empties_fixed (by decide)) (empties_operand (ih _))
  | binary comparison _ _ ih ih' => exact empties_binary comparison (ih _) (ih' _)
  | asyncFunction _ ih =>
    rw [hollowExpr, print_function, print_function]
    exact empties_append (empties_fixed (by decide)) (empties_block ih)
  | const identifier _ ih | declare identifier _ ih =>
    rw [hollowStmt]
    exact empties_bound (empties_append (empties_fixed (by decide)) (empties_name identifier))
      (ih depth)
  | assign identifier _ ih =>
    rw [hollowStmt, print_assign, print_assign]
    exact empties_bound (empties_name identifier) (ih depth)
  | expr _ ih =>
    rw [hollowStmt, print_expr, print_expr]
    exact empties_append (ih depth) (empties_fixed (by decide))
  | ifElse _ _ _ ih ihBody ihElse =>
    exact empties_if (ih depth) (empties_block ihBody) fun stmt given => ihElse stmt given depth
  | block _ ih =>
    rw [hollowStmt, print_block, print_block]
    exact empties_block ih
  | forOf identifier _ _ ih ihBody => exact empties_for identifier (ih depth) (empties_block ihBody)

/-- Emptying the strings in the text of a script is printing it with empty strings. -/
theorem script_empties {body : List Stmt} (proper : ProperBody numeral body) :
    emptied false (printScript body).toList = some (printScript (hollowBody body)).toList := by
  have lines : Empties (printLines 0 body) (printLines 0 (hollowBody body)) :=
    empties_lines fun stmt member => stmt_empties quiet (proper stmt member) 0
  have whole := lines []
  rw [List.append_nil] at whole
  simpa [printScript, emptied] using whole

end

end StepFlow.Script
