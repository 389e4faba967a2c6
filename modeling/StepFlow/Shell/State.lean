import StepFlow.Shell.Act
import StepFlow.Shell.Syntax

/-!
What a shell and the programs it runs work on: files, variables, arguments, where their output
goes, and what they have done so far.
-/
namespace StepFlow.Shell
open Workspace

inductive Course where
  | on
  | left
  | returned
  | brokenOut (loops : Nat)
  | skippedOn (loops : Nat)
  deriving DecidableEq, Repr, Inhabited

/-- A shell. Its acts and the variables saved by functions stand last first, and a trap that is
empty does nothing. With `strict` a failure that is not looked at ends the script, and with
`strictNames` a parameter that is missing. -/
structure State where
  files : FileTree
  path : List Place := []
  vars : List (String × String) := []
  functions : List (String × Command) := []
  name : String := "sh"
  args : List String := []
  status : Nat := 0
  pid : Nat := 0
  line : Nat := 1
  sinks : List (Nat × Sink) := [(1, .out), (2, .err)]
  input : Bytes := []
  acts : List Act := []
  course : Course := .on
  traps : List (Nat × String) := []
  pending : List String := []
  strict : Bool := false
  strictNames : Bool := false
  tested : Bool := false
  saved : List (String × Option String) := []
  depth : Nat := 0
  loops : Nat := 0

namespace State

def sink (s : State) (fd : Nat) : Sink := (s.sinks.lookup fd).getD .nowhere

def setSink (s : State) (fd : Nat) (sink : Sink) : State :=
  { s with sinks := (fd, sink) :: s.sinks.filter fun p => p.1 != fd }

def act (s : State) (a : Act) : State := { s with acts := a :: s.acts }

def appendFile (t : FileTree) (place : Place) (bytes : Bytes) : FileTree :=
  match t.get? place with
  | some (.file contents executable) =>
    t.put place (.file (contents ++ decodeLossy bytes) executable)
  | _ => t

def say (s : State) (fd : Nat) (bytes : Bytes) : State :=
  match s.sink fd with
  | .nowhere => s
  | .file place => { s with files := appendFile s.files place bytes }
  | sink => s.act (.say sink bytes)

def print (s : State) (text : String) : State := s.say 1 (encodeText text)

def complain (s : State) (text : String) (status : Nat) : State :=
  { s.say 2 (encodeText (text ++ "\n")) with status }

def report (s : State) (text : String) (status : Nat) : State :=
  s.complain (s.name ++ ": " ++ toString s.line ++ ": " ++ text) status

def done (s : State) (status : Nat) : State := { s with status }

def leave (s : State) : State := { s with course := .left }

def isOn (s : State) : Bool := s.course == .on

def var (s : State) (name : String) : Option String := s.vars.lookup name

def unsetVar (s : State) (name : String) : State :=
  { s with vars := s.vars.filter fun p => p.1 != name }

def setVar (s : State) (name value : String) : State :=
  { s with vars := (name, value) :: (s.unsetVar name).vars }

/-- What a part of a script that runs on its own starts with: traps hold no longer, but signals
that do nothing still do nothing. -/
def apart (s : State) : State :=
  { s with traps := s.traps.filter fun t => t.1 != 0 && t.2 == "", pending := [] }

def rejoin (s part : State) : State :=
  { s with
    files := { part.files with here := s.files.here }
    acts := part.acts
    status := part.status }

def placeText (place : Place) : String := "/" ++ "/".intercalate place

def buffered (acts : List Act) : Bytes × List Act :=
  acts.foldr (fun a (bytes, others) =>
    match a with
    | .say .buffer b => (b ++ bytes, others)
    | a => (bytes, a :: others)) ([], [])

end State

end StepFlow.Shell
