import StepFlow.Run.Context
import StepFlow.Run.Line

/-!
One run of a program. What is shared between the call that starts the run and the calls that
control it is changed in sections, one at a time: `control` is the section of a control call, and
`Phase.step` does one thing of the starting call at a time, a section or a report, so that any
interleaving is a sequence of these. A call that is spawning or reading waits for the process.
-/
namespace StepFlow.Run

inductive Signal where
  | pause
  | resume
  | kill
  deriving DecidableEq, Repr

def Signal.name : Signal → String
  | pause => "SIGSTOP"
  | resume => "SIGCONT"
  | kill => "SIGKILL"

inductive ProcessError where
  | spawn (reason : String)
  | signal (signal : Signal) (pid : Nat) (reason : String)
  | invalidTransition (state : State) (action : Action)
  | notSpawned
  deriving DecidableEq, Repr

def ProcessError.message : ProcessError → String
  | spawn reason => "failed to spawn process: " ++ reason
  | signal s pid reason =>
    "failed to send " ++ s.name ++ " to process " ++ String.ofList (Text.natDigits pid) ++ ": " ++
      reason
  | invalidTransition state action =>
    "cannot " ++ action.name ++ " a run that is " ++ state.name
  | notSpawned => "no process attached to the run"

structure LaunchSpec where
  program : String
  args : List String
  cwd : String
  deriving DecidableEq, Repr, Inhabited

structure Config where
  interpreter : String
  entry : String
  cwd : String
  app : Option Json := none
  deriving Repr, Inhabited

def Config.launchSpec (c : Config) (context : Context) : LaunchSpec :=
  ⟨c.interpreter, c.entry :: arguments context, c.cwd⟩

/-- What a process says: its lines, then that it ended, with an exit code where one is known. -/
inductive Transport where
  | line (stream : Stream) (text : String)
  | exited (code : Option Int := none)
  deriving DecidableEq, Repr

/-- What the calls on a run share. -/
structure Runner where
  state : State := .initial
  attached : Bool := false
  stepFailed : Bool := false
  deriving DecidableEq, Repr, Inhabited

abbrev Delivery := Signal → Option ProcessError

inductive Control where
  | pause
  | resume
  | stop
  | timeout
  deriving DecidableEq, Repr

def Control.action : Control → Action
  | pause => .pause
  | resume => .resume
  | stop => .stop
  | timeout => .timeout

/-- What a section leaves: the shared part, the events reported, and the signal issued. -/
structure Section (α : Type) where
  runner : Runner
  events : List Event
  signal : Option Signal
  result : α

namespace Runner

/-- Takes an action, reporting the new state; an action that is not allowed changes nothing. -/
def move (r : Runner) (action : Action) : Section (Except ProcessError Unit) :=
  match r.state.apply action with
  | some next => ⟨{ r with state := next }, [.stateChanged next], none, .ok ()⟩
  | none => ⟨r, [], none, .error (.invalidTransition r.state action)⟩

/-- Sends a signal and, once it is delivered, takes the action. -/
def signalThenMove (r : Runner) (action : Action) (signal : Signal) (deliver : Delivery) :
    Section (Except ProcessError Unit) :=
  match r.state.apply action with
  | none => ⟨r, [], none, .error (.invalidTransition r.state action)⟩
  | some _ =>
    if !r.attached then ⟨r, [], none, .error .notSpawned⟩
    else match deliver signal with
      | some e => ⟨r, [], some signal, .error e⟩
      | none => { r.move action with signal := some signal }

/-- Takes an action that ends the run, then kills the process if one is attached. -/
def moveThenKill (r : Runner) (action : Action) (deliver : Delivery) :
    Section (Except ProcessError Unit) :=
  let moved := r.move action
  match moved.result with
  | .error _ => moved
  | .ok () =>
    if !r.attached then moved
    else { moved with signal := some .kill, result := match deliver .kill with
      | some e => .error e
      | none => .ok () }

def control (r : Runner) (c : Control) (deliver : Delivery) : Section (Except ProcessError Unit) :=
  match c with
  | .pause => r.signalThenMove .pause .pause deliver
  | .resume => r.signalThenMove .resume .resume deliver
  | .stop => r.moveThenKill .stop deliver
  | .timeout => r.moveThenKill .timeout deliver

def dispose (r : Runner) : Runner := { r with attached := false }

end Runner

inductive Phase where
  | begin
  | announce
  | launch
  | spawning
  | lament (e : ProcessError)
  | fail (e : ProcessError)
  | attach
  | reading
  | relay (line : Line)
  | finish
  | conclude (state : State) (result : Except ProcessError State)
  | returned (result : Except ProcessError State)

structure Move where
  runner : Runner
  phase : Phase
  events : List Event := []
  signal : Option Signal := none
  launches : Bool := false

namespace Phase

/-- Where a section leads: on, or back to the caller with its error. -/
def after (s : Section (Except ProcessError Unit)) (next : Phase) : Move :=
  match s.result with
  | .ok () => ⟨s.runner, next, s.events, s.signal, false⟩
  | .error e => ⟨s.runner, .returned (.error e), s.events, s.signal, false⟩

def step (app : Option Json) (now : Int) (r : Runner) : Phase → Option Move
  | begin => some (after (r.move .start) .announce)
  | announce => some { runner := r, phase := .launch, events := [.runStarted now app] }
  | launch => some { runner := r, phase := .spawning, launches := true }
  | spawning => none
  | lament e =>
    some { runner := r, phase := .fail e, events := [.stepData ⟨.errorLog, .str e.message⟩] }
  | fail e =>
    let s := r.move .spawnFailure
    some { runner := s.runner, phase := .conclude s.runner.state (.error e), events := s.events }
  | attach =>
    if r.state.isTerminal then some { runner := r, phase := .reading, signal := some .kill }
    else some { runner := { r with attached := true }, phase := .reading }
  | reading => none
  | relay line => some { runner := r, phase := .reading, events := [line.event] }
  | finish =>
    let r := { r with attached := false }
    if r.state.isTerminal then some { runner := r, phase := .conclude r.state (.ok r.state) }
    else
      let s := r.move (.exit r.stepFailed)
      some (after s (.conclude s.runner.state (.ok s.runner.state)))
  | conclude state result =>
    some { runner := r, phase := .returned result, events := [.runEnded now state app] }
  | returned _ => none

def spawned : Except ProcessError Unit → Phase
  | .ok () => .attach
  | .error e => .lament e

/-- How a call goes on that waited for what the process says; nothing more is an end too, and the
exit code makes no difference. -/
def receive (r : Runner) : Option Transport → Move
  | some (.line stream text) =>
    let line := classify stream text
    { runner := { r with stepFailed := r.stepFailed || line.isFailure }, phase := .relay line }
  | some (.exited _) => { runner := r, phase := .finish }
  | none => { runner := r, phase := .finish }

end Phase

end StepFlow.Run
