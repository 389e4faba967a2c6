import StepFlow.Proofs.Compile.Pass

/-!
The names in sight in a compiled body. A declaration is seen by the statements behind it in its own
list and by those within them; a loop binds its name in its body. Steps are counted in the order of
the text, so that a name that is in sight tells which step has declared it. A merger that holds back
a chain has come as far as if the chain had been emitted, since a chain binds nothing behind it.
-/
namespace StepFlow.Compile
open StepFlow.Flow Script

/-- What binds a name. Steps are counted in the order of the text. -/
inductive Binder where
  | constant
  | output (step : Nat)
  deriving DecidableEq, Repr

abbrev Scope := List (String × Binder)

structure Landing where
  key : String
  binder : Option Binder
  deriving DecidableEq, Repr

mutual

def stmtKeys : Stmt → List (Option String)
  | .const .. => []
  | .declare key _ => [some key]
  | .assign key _ => [some key]
  | .expr _ => [none]
  | .ifElse _ consequent alternate => bodyKeys consequent ++ elseKeys alternate
  | .block body => bodyKeys body
  | .forOf _ _ body => bodyKeys body

def elseKeys : Option Stmt → List (Option String)
  | none => []
  | some stmt => stmtKeys stmt

def bodyKeys : List Stmt → List (Option String)
  | [] => []
  | stmt :: stmts => stmtKeys stmt ++ bodyKeys stmts

end

/-- The names in sight behind a statement, where `past` are the outputs of the steps before it. -/
def stmtScope (scope : Scope) (past : List (Option String)) : Stmt → Scope
  | .const name _ => (name, .constant) :: scope
  | .declare name _ => (name, .output past.length) :: scope
  | _ => scope

def bodyScope (scope : Scope) (past : List (Option String)) : List Stmt → Scope
  | [] => scope
  | stmt :: stmts => bodyScope (stmtScope scope past stmt) (past ++ stmtKeys stmt) stmts

mutual

def stmtLandings (scope : Scope) (past : List (Option String)) : Stmt → List Landing
  | .const .. => []
  | .declare .. => []
  | .assign name _ => [⟨name, scope.lookup name⟩]
  | .expr _ => []
  | .ifElse _ consequent alternate =>
    bodyLandings scope past consequent ++
      elseLandings scope (past ++ bodyKeys consequent) alternate
  | .block body => bodyLandings scope past body
  | .forOf name _ body => bodyLandings ((name, .constant) :: scope) past body

def elseLandings (scope : Scope) (past : List (Option String)) : Option Stmt → List Landing
  | none => []
  | some stmt => stmtLandings scope past stmt

def bodyLandings (scope : Scope) (past : List (Option String)) : List Stmt → List Landing
  | [] => []
  | stmt :: stmts =>
    stmtLandings scope past stmt ++
      bodyLandings (stmtScope scope past stmt) (past ++ stmtKeys stmt) stmts

end

section
variable (scope : Scope) (past : List (Option String))

theorem bodyKeys_append (first second : List Stmt) :
    bodyKeys (first ++ second) = bodyKeys first ++ bodyKeys second := by
  induction first with
  | nil => rfl
  | cons stmt stmts ih => simp [bodyKeys, ih]

theorem bodyScope_append (first second : List Stmt) :
    bodyScope scope past (first ++ second) =
      bodyScope (bodyScope scope past first) (past ++ bodyKeys first) second := by
  induction first generalizing scope past with
  | nil => simp [bodyScope, bodyKeys]
  | cons stmt stmts ih => simp [bodyScope, bodyKeys, ih]

theorem bodyLandings_append (first second : List Stmt) :
    bodyLandings scope past (first ++ second) = bodyLandings scope past first ++
      bodyLandings (bodyScope scope past first) (past ++ bodyKeys first) second := by
  induction first generalizing scope past with
  | nil => simp [bodyLandings, bodyScope, bodyKeys]
  | cons stmt stmts ih => simp [bodyLandings, bodyScope, bodyKeys, ih]

def Link.body : Link → List Stmt
  | .conditional _ body => body
  | .otherwise body => body

def Pending (links : List Link) : Prop := ∀ l ∈ links, l.isConditional = true

variable {links : List Link} (pending : Pending links) (l : Link)
include pending

theorem nest_keys : elseKeys (nest (links ++ [l])) = elseKeys (nest links) ++ bodyKeys l.body := by
  induction links with
  | nil => cases l <;> simp [nest, elseKeys, stmtKeys, Link.body]
  | cons first links ih =>
    have ih := ih fun l member => pending l (List.mem_cons_of_mem first member)
    cases first with
    | conditional test body => simp [nest, elseKeys, stmtKeys, ih]
    | otherwise body => cases pending (.otherwise body) List.mem_cons_self

theorem nest_landings : elseLandings scope past (nest (links ++ [l])) =
    elseLandings scope past (nest links) ++
      bodyLandings scope (past ++ elseKeys (nest links)) l.body := by
  induction links generalizing past with
  | nil =>
    cases l <;> simp [nest, elseLandings, stmtLandings, elseKeys, Link.body]
  | cons first links ih =>
    have ih := fun past => ih past fun l member => pending l (List.mem_cons_of_mem first member)
    cases first with
    | conditional test body =>
      simp [nest, elseLandings, stmtLandings, elseKeys, stmtKeys, ih]
    | otherwise body => cases pending (.otherwise body) List.mem_cons_self

end

structure Walked (scope : Scope) (past : List (Option String)) (m : Merger) (scope' : Scope)
    (past' : List (Option String)) (landings : List Landing) : Prop where
  pending : Pending m.chain
  bound : bodyScope scope past m.done = scope'
  stepped : past ++ bodyKeys m.done = past'
  landed : bodyLandings scope past m.done = landings

section
variable {scope scope' : Scope} {past past' : List (Option String)} {m : Merger}
  {landings : List Landing}

theorem bodyScope_nest (links : List Link) (scope : Scope) (past : List (Option String)) :
    bodyScope scope past (nest links).toList = scope := by
  cases links with
  | nil => rfl
  | cons l links => cases l <;> rfl

theorem bodyKeys_toList (stmt : Option Stmt) : bodyKeys stmt.toList = elseKeys stmt := by
  cases stmt <;> simp [bodyKeys, elseKeys]

theorem bodyLandings_toList (scope : Scope) (past : List (Option String)) (stmt : Option Stmt) :
    bodyLandings scope past stmt.toList = elseLandings scope past stmt := by
  cases stmt <;> simp [bodyLandings, elseLandings]

theorem pending_nil : Pending [] := by simp [Pending]

theorem pending_link {links : List Link} (pending : Pending links) (test : Expr)
    (body : List Stmt) : Pending (links ++ [.conditional test body]) := by
  intro l member
  rcases List.mem_append.mp member with old | new
  · exact pending l old
  · cases List.mem_singleton.mp new
    rfl

theorem walked_empty (scope : Scope) (past : List (Option String)) :
    Walked scope past .empty scope past [] where
  pending := pending_nil
  bound := rfl
  stepped := List.append_nil past
  landed := rfl

theorem flush_done (m : Merger) : m.flush.done = m.done := by
  simp [Merger.done, Merger.flush, nest]

theorem push_done (m : Merger) (stmt : Stmt) : (m.push stmt).done = m.done ++ [stmt] := by
  simp [Merger.push, Merger.done, Merger.flush, nest]

theorem open_done (m : Merger) (test : Expr) (body : List Stmt) :
    (m.open test body).done = (m.push (.ifElse test body none)).done := by
  simp [Merger.open, Merger.push, Merger.done, Merger.flush, nest]

theorem walked_stmt (w : Walked scope past m scope' past' landings) {m' : Merger} {stmt : Stmt}
    (pending : Pending m'.chain) (done : m'.done = m.done ++ [stmt]) :
    Walked scope past m' (stmtScope scope' past' stmt) (past' ++ stmtKeys stmt)
      (landings ++ stmtLandings scope' past' stmt) where
  pending := pending
  bound := by simp [done, bodyScope_append, w.bound, w.stepped, bodyScope]
  stepped := by simp [done, bodyKeys_append, ← w.stepped, bodyKeys]
  landed := by simp [done, bodyLandings_append, w.bound, w.stepped, w.landed, bodyLandings]

theorem walked_link (w : Walked scope past m scope' past' landings) {m' : Merger} {l : Link}
    (pending : Pending m'.chain) (done : m'.done = (m.link l).done) :
    Walked scope past m' scope' (past' ++ bodyKeys l.body)
      (landings ++ bodyLandings scope' past' l.body) := by
  have emitted : bodyScope scope past m.emitted = scope' := by
    rw [← w.bound, Merger.done, Merger.flush, bodyScope_append, bodyScope_nest]
  have keys : past' = past ++ bodyKeys m.emitted ++ elseKeys (nest m.chain) := by
    rw [← w.stepped, Merger.done, Merger.flush, bodyKeys_append, bodyKeys_toList, List.append_assoc]
  refine ⟨pending, ?_, ?_, ?_⟩
  · rw [done, Merger.done, Merger.flush, bodyScope_append, bodyScope_nest]
    exact emitted
  · rw [done, Merger.done, Merger.flush, bodyKeys_append, bodyKeys_toList, keys]
    simp [Merger.link, nest_keys w.pending]
  · rw [done, ← w.landed, Merger.done, Merger.flush, Merger.done, Merger.flush,
      bodyLandings_append, bodyLandings_append, bodyLandings_toList, bodyLandings_toList]
    simp only [Merger.link, nest_landings _ _ w.pending, emitted, keys, List.append_assoc]

end

end StepFlow.Compile
