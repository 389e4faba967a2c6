/-!
A queue that runs one job at a time. What callers share is changed in sections, one at a time: a
job is put in, a drain takes the next job unless one is executing, and the end of a job is marked.
Every submission and every end of a job is followed by a drain, as a section of its own.
-/
namespace StepFlow

structure Queue (α : Type) where
  waiting : List α := []
  running : Bool := false
  deriving Repr, Inhabited

inductive Entrance where
  | back
  | front
  deriving DecidableEq, Repr, Inhabited

inductive Drained (α : Type) where
  | busy
  | idle
  | started (job : α)
  deriving Repr, Inhabited

namespace Queue

variable {α : Type}

def push (q : Queue α) (entrance : Entrance) (job : α) : Queue α :=
  match entrance with
  | .back => { q with waiting := q.waiting ++ [job] }
  | .front => { q with waiting := job :: q.waiting }

def drain (q : Queue α) : Queue α × Drained α :=
  if q.running then (q, .busy)
  else match q.waiting with
    | [] => (q, .idle)
    | job :: rest => (⟨rest, true⟩, .started job)

def finish (q : Queue α) : Queue α := { q with running := false }

def size (q : Queue α) : Nat := q.waiting.length

def isEmpty (q : Queue α) : Bool := q.waiting.isEmpty

def isIdle (q : Queue α) : Bool := !q.running && q.waiting.isEmpty

end Queue

end StepFlow
