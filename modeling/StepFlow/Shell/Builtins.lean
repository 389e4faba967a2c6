import StepFlow.Shell.Programs

/-!
The commands that a shell brings along: signals, variables, loops and the end of a script. Where the
failure of such a command ends a script, the command says so.
-/
namespace StepFlow.Shell
open Workspace

/-! ### Signals -/

def killUsage (s : State) : State :=
  s.report ("kill: Usage: kill [-s sigspec | -signum | -sigspec] [pid | job]... or\n" ++
    "kill -l [exitstatus]") 2

/-- Sends a signal to processes. What this shell does on a signal to itself is left for later; a
signal that ends it is the last thing it does. -/
def send (number : Nat) : List String → State → State
  | [], s => s.done 0
  | target :: rest, s =>
    match target.toNat? with
    | none => s.report ("kill: Illegal number: " ++ target) 2
    | some pid =>
      if pid != s.pid then send number rest (s.act (.signal pid number))
      else match s.traps.lookup number with
        | some action =>
          send number rest (if action == "" then s else { s with pending := s.pending ++ [action] })
        | none =>
          let s := s.act (.signal pid number)
          if signalEffect number == .kill then s.leave else send number rest s

def kill : Tool
  | [], s => killUsage s
  | "-s" :: name :: pids, s =>
    match signalNumber? name with
    | some number => send number pids s
    | none => s.report ("kill: invalid signal number or name: " ++ name) 2
  | first :: pids, s =>
    match first.toList with
    | '-' :: name =>
      match signalNumber? (String.ofList name) with
      | some number => if pids.isEmpty then killUsage s else send number pids s
      | none => s.report ("kill: Illegal option -" ++ String.ofList (name.take 1)) 2
    | _ => send 15 (first :: pids) s

def trap : Tool := fun args s =>
  match args with
  | [] => s.done 0
  | [name] =>
    { s with traps := s.traps.filter fun t => some t.1 != signalNumber? name, status := 0 }
  | action :: names =>
    let numbers := names.filterMap signalNumber?
    let others := s.traps.filter fun t => !numbers.contains t.1
    let laid := if action == "-" then [] else numbers.map fun n => (n, action)
    { s with traps := laid ++ others, status := 0 }

/-! ### Variables -/

def setAll : Tool := fun args s =>
  (args.foldl (fun s a =>
    match Text.splitFirst '=' a.toList with
    | some (name, value) => s.setVar (String.ofList name) (String.ofList value)
    | none => s) s).done 0

def localAll : Tool := fun args s =>
  if s.depth = 0 then (s.report "local: not in a function" 2).leave
  else
    let names := args.map fun a => String.ofList (a.toList.takeWhile (· != '='))
    setAll args { s with saved := (names.map fun n => (n, s.var n)) ++ s.saved }

def unset : Tool := fun args s => (args.foldl State.unsetVar s).done 0

def shift : Tool := fun args s =>
  let n := (args.head?.map fun a => (intOf a).toNat).getD 1
  if n ≤ s.args.length then { s with args := s.args.drop n, status := 0 }
  else (s.report "shift: can't shift that many" 2).leave

def set : Tool
  | [], s => s.done 0
  | "--" :: args, s => { s with args, status := 0 }
  | a :: rest, s =>
    let turn (on : Bool) (s : State) (c : Char) : State :=
      match c with
      | 'e' => { s with strict := on }
      | 'u' => { s with strictNames := on }
      | _ => s
    match a.toList with
    | '-' :: cs => set rest (cs.foldl (turn true) s)
    | '+' :: cs => set rest (cs.foldl (turn false) s)
    | _ => { s with args := a :: rest, status := 0 }

/-- Reads a line into variables; the last takes what is left. -/
def read : Tool := fun args s =>
  let names := (options args).2
  let line := s.input.takeWhile (· != 10)
  let ended := s.input.length > line.length
  let s := { s with input := s.input.drop (line.length + 1) }
  (assign s (decodeLossy line).toList names).done (if ended then 0 else 1)
where
  assign (s : State) (text : List Char) : List String → State
    | [] => s
    | [name] => s.setVar name (String.ofList (Text.trim text))
    | name :: rest =>
      let text := Text.skipBlanks text
      let here := text.takeWhile fun c => c != ' ' && c != '\t'
      assign (s.setVar name (String.ofList here)) (text.drop here.length) rest

/-! ### Course -/

def cd : Tool := fun args s =>
  let path := args.head?.getD ((s.var "HOME").getD "/")
  match s.files.find path with
  | .ok (place, .directory) =>
    ({ s with files := { s.files with here := place } }.setVar "PWD" (State.placeText place)).done 0
  | _ => s.report ("cd: can't cd to " ++ path) 2

/-- Ends loops, one if no number is given and none if there are none. -/
def leaveLoops (course : Nat → Course) : Tool := fun args s =>
  let n := (args.head?.map fun a => (intOf a).toNat).getD 1
  if s.loops = 0 then s.done 0 else { s with course := course (min n s.loops), status := 0 }

def statusOf (args : List String) (s : State) : Nat :=
  match args with
  | a :: _ => (intOf a).toNat % 256
  | [] => s.status

def exit : Tool := fun args s =>
  match args.head?.map integer with
  | some (.error why) => (s.report ("exit: " ++ why) 2).leave
  | _ => (s.done (statusOf args s)).leave

def giveBack : Tool := fun args s => { s with course := .returned, status := statusOf args s }

def builtins : List (String × Tool) :=
  [("echo", echoEscaped), ("printf", printf), ("true", fun _ s => s.done 0),
    (":", fun _ s => s.done 0), ("false", fun _ s => s.done 1), ("test", testAs "test"),
    ("[", bracket), ("kill", kill), ("pwd", pwd), ("cd", cd), ("export", setAll),
    ("readonly", setAll), ("local", localAll), ("unset", unset), ("set", set), ("shift", shift),
    ("read", read), ("trap", trap), ("break", leaveLoops .brokenOut),
    ("continue", leaveLoops .skippedOn), ("return", giveBack), ("exit", exit),
    ("umask", fun _ s => s.done 0), ("wait", fun _ s => (s.act .join).done 0)]

end StepFlow.Shell
