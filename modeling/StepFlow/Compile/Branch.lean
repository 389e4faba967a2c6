import StepFlow.Script.Syntax

/-!
Merging of branches. The links of a chain, one per sibling, are held back until the chain ends and
are then emitted as one statement, each link in the `else` of the one before it.
-/
namespace StepFlow.Compile
open Script

inductive Link where
  | conditional (test : Expr) (body : List Stmt)
  | otherwise (body : List Stmt)

def Link.isConditional : Link → Bool
  | .conditional .. => true
  | .otherwise _ => false

/-- The statement for the links of a chain, the first one outermost. -/
def nest : List Link → Option Stmt
  | [] => none
  | .conditional test body :: links => some (.ifElse test body (nest links))
  | .otherwise body :: _ => some (.block body)

/-- The statements emitted so far, and the links of the chain that is still open. -/
structure Merger where
  emitted : List Stmt
  chain : List Link

namespace Merger

def empty : Merger := ⟨[], []⟩

def flush (m : Merger) : Merger := ⟨m.emitted ++ (nest m.chain).toList, []⟩

def push (m : Merger) (stmt : Stmt) : Merger := ⟨m.flush.emitted ++ [stmt], []⟩

def «open» (m : Merger) (test : Expr) (body : List Stmt) : Merger :=
  ⟨m.flush.emitted, [.conditional test body]⟩

def extend? (m : Merger) (test : Expr) (body : List Stmt) : Option Merger :=
  if m.chain.isEmpty then none else some { m with chain := m.chain ++ [.conditional test body] }

def close? (m : Merger) (body : List Stmt) : Option Merger :=
  if m.chain.isEmpty then none
  else some (flush { m with chain := m.chain ++ [.otherwise body] })

end Merger

end StepFlow.Compile
