/-!
The states of a run and the actions that move it. An action that the table does not list is not
allowed in that state; no action is allowed once a run has ended.
-/
namespace StepFlow.Run

inductive State where
  | initial
  | running
  | paused
  | success
  | error
  | stopped
  | timeout
  deriving DecidableEq, Repr, Inhabited

inductive Action where
  | start
  | pause
  | resume
  | stop
  | timeout
  | exit (failed : Bool)
  | spawnFailure
  deriving DecidableEq, Repr

namespace State

def isTerminal : State → Bool
  | success | error | stopped | timeout => true
  | initial | running | paused => false

def apply : State → Action → Option State
  | initial, .start => some running
  | running, .pause => some paused
  | paused, .resume => some running
  | initial, .stop | running, .stop | paused, .stop => some stopped
  | initial, .timeout | running, .timeout | paused, .timeout => some timeout
  | running, .exit failed | paused, .exit failed => some (if failed then error else success)
  | running, .spawnFailure => some error
  | _, _ => none

def name : State → String
  | initial => "initial"
  | running => "running"
  | paused => "paused"
  | success => "success"
  | error => "error"
  | stopped => "stopped"
  | timeout => "timeout"

def names : List (String × State) :=
  [("initial", initial), ("running", running), ("paused", paused), ("success", success),
    ("error", error), ("stopped", stopped), ("timeout", timeout)]

end State

def Action.name : Action → String
  | start => "start"
  | pause => "pause"
  | resume => "resume"
  | stop => "stop"
  | timeout => "timeout"
  | exit _ => "exit"
  | spawnFailure => "spawn failure"

end StepFlow.Run
