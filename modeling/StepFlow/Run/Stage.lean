import StepFlow.Run.World

/-!
A world of scripted processes. The script says how processes come about and which signals are
refused; what the process says is given from outside.
-/
namespace StepFlow.Run
open Workspace

/-- How a process comes about: at once or once a gate is open, and with or without success. -/
structure Spawning where
  gated : Bool := false
  fails : Bool := false
  deriving DecidableEq, Repr, Inhabited

structure Script where
  spawning : Spawning := {}
  refused : List Signal := []
  ignoresKill : Bool := false
  deriving DecidableEq, Repr, Inhabited

structure Actor where
  unread : List Transport := []
  closed : Bool := false
  unheard : Bool := false
  deriving Repr, Inhabited

/-- The signals that were delivered and the launches that were asked for are noted. -/
structure Stage where
  script : Script := {}
  files : FileTree := {}
  clock : Nat := 0
  actor : Option Actor := none
  gateOpen : Bool := false
  signals : List Signal := []
  launches : List LaunchSpec := []
  deriving Repr, Inhabited

def scriptedPid : Nat := 4242

namespace Stage

def say? (s : Stage) (t : Transport) : Option Stage :=
  match s.actor with
  | some a =>
    if a.closed || a.unheard then none
    else some { s with actor := some { a with unread := a.unread ++ [t] } }
  | none => none

def close? (s : Stage) : Option Stage :=
  match s.actor with
  | some a => if a.closed then none else some { s with actor := some { a with closed := true } }
  | none => none

def openGate (s : Stage) : Stage := { s with gateOpen := true }

/-- A signal that is not refused is noted; a kill ends the process unless that is ignored. -/
def deliver (signal : Signal) (s : Stage) : Stage × Option ProcessError :=
  if s.script.refused.contains signal then
    (s, some (.signal signal scriptedPid "no such process"))
  else
    let s := { s with signals := s.signals ++ [signal] }
    if signal = .kill && !s.script.ignoresKill then ((s.say? .exited).getD s, none) else (s, none)

def spawned? (s : Stage) : Option (Stage × Except ProcessError Unit) :=
  if s.script.spawning.gated && !s.gateOpen then none
  else
    let s := if s.script.spawning.gated then { s with gateOpen := false } else s
    if s.script.spawning.fails then some (s, .error (.spawn "interpreter not found"))
    else some ({ s with actor := some {} }, .ok ())

def heard? (s : Stage) : Option (Stage × Option Transport) :=
  match s.actor with
  | none => none
  | some a =>
    match a.unread with
    | t :: rest => some ({ s with actor := some { a with unread := rest } }, some t)
    | [] => if a.closed then some (s, none) else none

def leave (s : Stage) : Stage :=
  { s with actor := s.actor.map fun a => { a with unheard := true } }

def reported (s : Stage) : Stage := { s with signals := [], launches := [] }

instance : World Stage where
  files := Stage.files
  putFiles files s := { s with files }
  now := Stage.clock
  next? _ := none
  advance time s := { s with clock := time }
  launch spec s := { s with launches := s.launches ++ [spec] }
  spawned? := spawned?
  heard? := heard?
  audible s := (s.actor.map fun a => a.unread.length).getD 0
  deliver := deliver
  leave := leave

end Stage

end StepFlow.Run
