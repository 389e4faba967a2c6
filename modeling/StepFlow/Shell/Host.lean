import StepFlow.Shell.Process

/-!
A world in which programs really run: known tools, and scripts that are files. Signals are sent by
a program named `kill`, which is looked up like any other; its complaint is the reason of a
failure. Once the process has ended, signals go nowhere and do not fail.
-/
namespace StepFlow.Shell
open Run Workspace

structure Host where
  files : FileTree
  path : List Place := []
  vars : List (String × String) := []
  clock : Nat := 0
  request : Option LaunchSpec := none
  process : Option Process := none

namespace Host

def pid : Nat := 0

/-- A bound on the acts up to a moment. -/
def acts : Nat := 1000000

def state (h : Host) (files : FileTree) : State := { files, path := h.path, vars := h.vars }

def filesAt (t : FileTree) (cwd : String) : Except FileError FileTree :=
  match t.find cwd with
  | .error e => .error e
  | .ok (_, .file ..) => .error .notDirectory
  | .ok (place, .directory) => .ok { t with here := place }

def advance (time : Nat) (h : Host) : Host :=
  { h with
    clock := max h.clock time
    process := h.process.map (Process.advance pid time acts) }

def next? (h : Host) : Option Nat := h.process.bind Process.next?

def start (h : Host) (spec : LaunchSpec) : Except FileError Host :=
  match filesAt h.files spec.cwd with
  | .error e => .error e
  | .ok files =>
    match Shell.launch (h.state files) spec.program spec.args with
    | .error e => .error e
    | .ok s =>
      let process : Process := { main := some { acts := s.acts.reverse, due := h.clock } }
      .ok (advance h.clock { h with
        files := { s.files with here := h.files.here }
        request := none
        process := some process })

def spawned? (h : Host) : Option (Host × Except ProcessError Unit) :=
  match h.request with
  | none => none
  | some spec =>
    match h.start spec with
    | .ok h => some (h, .ok ())
    | .error e => some ({ h with request := none }, .error (.spawn e.message))

def heard? (h : Host) : Option (Host × Option Transport) :=
  match h.process with
  | none => none
  | some p =>
    match p.unread with
    | [] => none
    | t :: rest => some ({ h with process := some { p with unread := rest } }, some t)

/-- Lays the acts of the program that sends a signal over the clock. -/
def performAll (h : Host) : List Act → Host × Bytes
  | [] => (h, [])
  | .wait time :: rest => performAll (advance (h.clock + time) h) rest
  | .say .err bytes :: rest =>
    let (h, more) := performAll h rest
    (h, bytes ++ more)
  | .signal target number :: rest =>
    let effect := if target = pid then signalEffect number else .none
    let h := { h with process := h.process.map fun p => p.signal h.clock effect }
    performAll (advance h.clock h) rest
  | _ :: rest => performAll h rest

def signalName : Signal → String
  | .pause => "STOP"
  | .resume => "CONT"
  | .kill => "KILL"

def deliver (signal : Signal) (h : Host) : Host × Option ProcessError :=
  if (h.process.bind Process.exitTime).isSome then (h, none)
  else
    let args := ["-" ++ signalName signal, String.ofList (Text.natDigits pid)]
    let s := { h.state h.files with pid := pid + 1 }
    match Shell.launch s "kill" args with
    | .error e => (h, some (.signal signal pid e.message))
    | .ok s =>
      let h := { h with files := { s.files with here := h.files.here } }
      let (h, complaint) := h.performAll s.acts.reverse
      if s.status = 0 then (h, none)
      else
        let reason := String.ofList (Text.trim (decodeLossy complaint).toList)
        (h, some (.signal signal pid reason))

instance : World Host where
  files := Host.files
  putFiles files h := { h with files }
  now := Host.clock
  next? := next?
  advance := advance
  launch spec h := { h with request := some spec }
  spawned? := spawned?
  heard? := heard?
  audible h := (h.process.map fun p => p.unread.length).getD 0
  deliver := deliver
  leave := id

end Host

end StepFlow.Shell
