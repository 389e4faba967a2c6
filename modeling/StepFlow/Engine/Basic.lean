import StepFlow.Compile.Basic
import StepFlow.Run.World
import StepFlow.Workspace.Materialize

/-!
Requests for runs, what comes of them, and the slot that one run at a time holds. Control calls
reach the runner that is in the slot.
-/
namespace StepFlow.Engine
open Run

structure Request where
  app : String
  nodes : List Flow.Node
  context : Context := []
  timeoutMs : Option Nat := none

structure Outcome where
  run : String
  state : State
  deriving DecidableEq, Repr

inductive Error where
  | compile (e : Compile.Error)
  | workspace (e : Workspace.Error)
  | process (e : ProcessError)
  | noActiveRun
  | runInProgress (run : String)

def Error.message : Error → String
  | compile e => "compile failed: " ++ e.message
  | workspace e => e.message
  | process e => "run failed: " ++ e.message
  | noActiveRun => "no active run"
  | runInProgress run => "run '" ++ run ++ "' is already active"

structure Active where
  run : String
  app : String
  runner : Option String := none
  deriving DecidableEq, Repr

abbrev Slot := Option Active

namespace Slot

def reserve (s : Slot) (run app : String) : Except Error Slot :=
  match s with
  | some active => .error (.runInProgress active.run)
  | none => .ok (some { run, app })

def install (s : Slot) (run : String) : Slot := s.map fun a => { a with runner := some run }

def release (s : Slot) (run : String) : Slot :=
  match s with
  | some active => if active.run = run then none else some active
  | none => none

end Slot

end StepFlow.Engine
