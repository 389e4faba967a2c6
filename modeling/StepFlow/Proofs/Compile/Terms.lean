import StepFlow.Proofs.Compile.Parts
import StepFlow.Proofs.Script.Reading

/-!
The terms of a compiled body: its expressions and all that they consist of. Values of a flow are
plain, whatever their source: names, literals and what is put together from them. A body has more
than plain terms only for its steps, each of which awaits one call.
-/
namespace StepFlow.Compile
open StepFlow.Flow Script

mutual

def exprTerms : Expr → List Expr
  | .ident name => [.ident name]
  | .str value => [.str value]
  | .num spelling => [.num spelling]
  | .bool value => [.bool value]
  | .null => [.null]
  | .array items => itemTerms items ++ [.array items]
  | .object props => propTerms props ++ [.object props]
  | .member object property => exprTerms object ++ [.member object property]
  | .call callee args => exprTerms callee ++ itemTerms args ++ [.call callee args]
  | .await inner => exprTerms inner ++ [.await inner]
  | .binary comparison left right =>
    exprTerms left ++ exprTerms right ++ [.binary comparison left right]
  | .asyncFunction body => bodyTerms body ++ [.asyncFunction body]

def itemTerms : List Expr → List Expr
  | [] => []
  | item :: items => exprTerms item ++ itemTerms items

def propTerm : PropKey × Expr → List Expr
  | (_, value) => exprTerms value

def propTerms : List (PropKey × Expr) → List Expr
  | [] => []
  | prop :: props => propTerm prop ++ propTerms props

def stmtTerms : Stmt → List Expr
  | .const _ init => exprTerms init
  | .declare _ init => exprTerms init
  | .assign _ value => exprTerms value
  | .expr value => exprTerms value
  | .ifElse test consequent alternate =>
    exprTerms test ++ (bodyTerms consequent ++ elseTerms alternate)
  | .block body => bodyTerms body
  | .forOf _ iterable body => exprTerms iterable ++ bodyTerms body

def elseTerms : Option Stmt → List Expr
  | none => []
  | some stmt => stmtTerms stmt

def bodyTerms : List Stmt → List Expr
  | [] => []
  | stmt :: stmts => stmtTerms stmt ++ bodyTerms stmts

end

def Part.terms : Part → List Expr
  | .binds _ => []
  | .value e => exprTerms e

mutual

theorem stmtTerms_parts (stmt : Stmt) : stmtTerms stmt = (stmtParts stmt).flatMap Part.terms := by
  cases stmt with
  | ifElse test consequent alternate =>
    simp [stmtTerms, stmtParts, Part.terms, bodyTerms_parts consequent, elseTerms_parts alternate]
  | block body => simp [stmtTerms, stmtParts, bodyTerms_parts body]
  | forOf binding iterable body =>
    simp [stmtTerms, stmtParts, Part.terms, bodyTerms_parts body]
  | _ => simp [stmtTerms, stmtParts, Part.terms]

theorem elseTerms_parts (stmt : Option Stmt) :
    elseTerms stmt = (elseParts stmt).flatMap Part.terms := by
  cases stmt with
  | none => rfl
  | some stmt => rw [elseTerms, elseParts, stmtTerms_parts stmt]

theorem bodyTerms_parts (body : List Stmt) :
    bodyTerms body = (bodyParts body).flatMap Part.terms := by
  cases body with
  | nil => rfl
  | cons stmt stmts =>
    rw [bodyTerms, bodyParts, stmtTerms_parts stmt, bodyTerms_parts stmts, List.flatMap_append]

end

def isPlain : Expr → Bool
  | .call .. => false
  | .await _ => false
  | .asyncFunction _ => false
  | _ => true

def Plain (e : Expr) : Prop := ∀ t ∈ exprTerms e, isPlain t = true

section
variable {items : List Expr} {props : List (PropKey × Expr)} {e : Expr}

theorem items_plain (each : ∀ e ∈ items, Plain e) : ∀ t ∈ itemTerms items, isPlain t = true := by
  induction items with
  | nil => simp [itemTerms]
  | cons item items ih =>
    intro t member
    rcases List.mem_append.mp member with first | later
    · exact each item List.mem_cons_self t first
    · exact ih (fun e member => each e (List.mem_cons_of_mem item member)) t later

theorem props_plain (each : ∀ prop ∈ props, Plain prop.2) :
    ∀ t ∈ propTerms props, isPlain t = true := by
  induction props with
  | nil => simp [propTerms]
  | cons prop props ih =>
    intro t member
    rcases List.mem_append.mp member with first | later
    · rw [propTerm] at first
      exact each prop List.mem_cons_self t first
    · exact ih (fun e member => each e (List.mem_cons_of_mem prop member)) t later

theorem plain_snoc {ts : List Expr} (inner : ∀ t ∈ ts, isPlain t = true)
    (own : isPlain e = true) : ∀ t ∈ ts ++ [e], isPlain t = true := by
  intro t member
  rcases List.mem_append.mp member with old | new
  · exact inner t old
  · rwa [List.mem_singleton.mp new]

theorem ident_plain (name : String) : Plain (.ident name) := by simp [Plain, exprTerms, isPlain]

theorem str_plain (value : String) : Plain (.str value) := by simp [Plain, exprTerms, isPlain]

theorem member_plain (plain : Plain e) (property : String) : Plain (.member e property) :=
  plain_snoc plain rfl

theorem object_plain (each : ∀ prop ∈ props, Plain prop.2) : Plain (.object props) :=
  plain_snoc (props_plain each) rfl

theorem literal_plain (literal : Literal.IsLiteral e) : Plain e := by
  induction literal with
  | reference reference =>
    induction reference with
    | name => exact ident_plain _
    | field _ _ _ ih => exact member_plain ih _
  | array _ ih => exact plain_snoc (items_plain ih) rfl
  | object _ _ ih => exact object_plain ih
  | _ => simp [Plain, exprTerms, isPlain]

theorem fields_plain {raw : String} {node : Option String} {base : Expr}
    {fields : List (List Char)} (plain : Plain base)
    (resolved : resolveFields raw node base fields = .ok e) : Plain e := by
  induction fields generalizing base with
  | nil =>
    cases resolved
    exact plain
  | cons field fields ih =>
    rw [resolveFields] at resolved
    split at resolved
    · exact ih (member_plain plain _) resolved
    · cases resolved

theorem resolve_plain {source : Source} {type : ValueType} {value : String} {node : Option String}
    (resolved : resolve source type value node = .ok e) : Plain e := by
  cases resolve_resolved resolved with
  | blank => exact ident_plain _
  | literal parsed => exact literal_plain (Literal.parse_literal parsed)
  | boolean | number | text => simp [Plain, exprTerms, isPlain]
  | reference _ rest => exact fields_plain (ident_plain _) rest
  | entry => exact member_plain (member_plain (ident_plain globalName) value) "value"
  | binding => exact ident_plain value

theorem meaning_plain (source : Source) (type : ValueType) (value : String) :
    Plain (meaning source type value) := by
  unfold meaning
  cases resolved : resolve source type value none with
  | error e => exact ident_plain _
  | ok e => exact resolve_plain resolved

theorem test_plain (condition : Condition) : Plain (Condition.test condition) := by
  refine plain_snoc ?_ rfl
  intro t member
  rcases List.mem_append.mp member with left | right
  · exact meaning_plain _ _ _ t left
  · exact meaning_plain _ _ _ t right

theorem inputs_plain (s : StepCall) : Plain (.object (s.inputs.map inputProp)) := by
  refine object_plain fun prop member => ?_
  obtain ⟨i, _, rfl⟩ := List.mem_map.mp member
  exact meaning_plain i.source i.type i.value

theorem parts_terms (s : StepCall) (target : Expr) :
    (s.parts target).flatMap Part.terms = exprTerms (s.invocation target) := by
  unfold StepCall.parts
  cases s.output <;> simp [OutputArg.part, Part.terms]

theorem invocation_terms (s : StepCall) (target : Expr) :
    exprTerms (s.invocation target) = exprTerms (.member target "run") ++
      exprTerms (.object (s.inputs.map inputProp)) ++ exprTerms s.info ++
      [.call (.member target "run") [.object (s.inputs.map inputProp), s.info],
        s.invocation target] := by
  simp [StepCall.invocation, exprTerms, itemTerms]

theorem info_plain (s : StepCall) : Plain s.info := by
  refine object_plain fun prop member => ?_
  simp only [List.mem_cons, List.not_mem_nil, or_false] at member
  rcases member with rfl | rfl | rfl <;> exact str_plain _

end

end StepFlow.Compile
