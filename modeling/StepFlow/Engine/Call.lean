import StepFlow.Engine.Basic
import StepFlow.Engine.Config
import StepFlow.Workspace.Metadata

/-!
A call that carries out a request: it takes the slot, compiles the flow, puts the program in
place, installs a runner, starts the time limit, and runs the program; on every way out the slot
is released. Each step is a section on what calls share, a piece of work on files, or a step of
the run, so that any interleaving is a sequence of these.
-/
namespace StepFlow.Engine
open Run Workspace

structure Shared where
  slot : Slot := none
  runners : List (String × Runner) := []

namespace Shared

def runner (s : Shared) (run : String) : Runner := (s.runners.lookup run).getD {}

def setRunner (s : Shared) (run : String) (r : Runner) : Shared :=
  { s with runners := (run, r) :: s.runners.filter fun p => p.1 != run }

end Shared

inductive Phase where
  | reserve
  | compile
  | place (program : Compile.Program)
  | describe (dir : String)
  | install (config : Run.Config)
  | limit (config : Run.Config)
  | running (attempt : Attempt)
  | unlimit (result : Except ProcessError State)
  | dispose (result : Except ProcessError State)
  | release (result : Except Error Outcome)
  | returned (result : Except Error Outcome)

structure Call where
  run : String
  request : Request
  phase : Phase := .reserve

inductive LimitOrder where
  | start (ms : Nat)
  | cancel

structure Stepped (σ : Type) where
  call : Call
  world : σ
  shared : Shared
  events : List PublishedEvent := []
  limit : Option LimitOrder := none

namespace Call

def publish (c : Call) (event : Event) : PublishedEvent := ⟨c.request.app, c.run, event⟩

def runConfig (config : Config) (dir : String) (app : Option Json) : Run.Config where
  interpreter := config.interpreter
  entry := programFile
  cwd := dir
  app := app

def limitMs (config : Config) (r : Request) : Option Nat := r.timeoutMs <|> config.defaultTimeoutMs

variable {σ : Type} [World σ]

def step? (config : Config) (c : Call) (w : σ) (s : Shared) : Option (Stepped σ) :=
  let enter (phase : Phase) := { c with phase }
  match c.phase with
  | .reserve =>
    match s.slot.reserve c.run c.request.app with
    | .error e => some ⟨enter (.returned (.error e)), w, s, [], none⟩
    | .ok slot => some ⟨enter .compile, w, { s with slot }, [], none⟩
  | .compile =>
    match Compile.compile config.groupRoot c.request.nodes with
    | .error e => some ⟨enter (.release (.error (.compile e))), w, s, [], none⟩
    | .ok program => some ⟨enter (.place program), w, s, [], none⟩
  | .place program =>
    match materialize (World.files w) config.workspaceRoot c.request.app program with
    | (files, .error e) =>
      some ⟨enter (.release (.error (.workspace e))), World.putFiles files w, s, [], none⟩
    | (files, .ok dir) => some ⟨enter (.describe dir), World.putFiles files w, s, [], none⟩
  | .describe dir =>
    let app := fileMetadata? (World.files w) config.workspaceRoot c.request.app
    some ⟨enter (.install (runConfig config dir app)), w, s, [], none⟩
  | .install run =>
    let s := { s.setRunner c.run {} with slot := s.slot.install c.run }
    some ⟨enter (.limit run), w, s, [], none⟩
  | .limit run =>
    some ⟨enter (.running { config := run, context := c.request.context }), w, s, [],
      (limitMs config c.request).map .start⟩
  | .running attempt =>
    match attempt.phase with
    | .returned result => some ⟨enter (.unlimit result), w, s, [], none⟩
    | _ =>
      match attempt.step? w (s.runner c.run) with
      | none => none
      | some t => some ⟨enter (.running t.attempt), t.world, s.setRunner c.run t.runner,
          t.events.map c.publish, none⟩
  | .unlimit result => some ⟨enter (.dispose result), w, s, [], some .cancel⟩
  | .dispose result =>
    let s := s.setRunner c.run (s.runner c.run).dispose
    let result := match result with
      | .ok state => .ok ⟨c.run, state⟩
      | .error e => .error (.process e)
    some ⟨enter (.release result), w, s, [], none⟩
  | .release result =>
    some ⟨enter (.returned result), w, { s with slot := s.slot.release c.run }, [], none⟩
  | .returned _ => none

def waits (c : Call) : Bool :=
  match c.phase with
  | .running attempt => attempt.waits
  | _ => false

/-- Whether a call is about to work on files; a name that is refused needs no files for that. -/
def wantsFiles (c : Call) : Bool :=
  match c.phase with
  | .place _ => isSegment c.request.app
  | _ => false

end Call

def control {σ : Type} [World σ] (c : Control) (w : σ) (s : Shared) :
    σ × Shared × List PublishedEvent × Except Error Unit :=
  match s.slot with
  | some ⟨_, app, some run⟩ =>
    let (t, w) := (s.runner run).controlIn c w
    (w, s.setRunner run t.runner, t.events.map fun e => ⟨app, run, e⟩, t.result.mapError .process)
  | _ => (w, s, [], .error .noActiveRun)

def expire {σ : Type} [World σ] (app run : String) (w : σ) (s : Shared) :
    σ × Shared × List PublishedEvent :=
  let r := s.runner run
  if r.state.isTerminal then (w, s, [])
  else
    let (t, w) := r.controlIn .timeout w
    (w, s.setRunner run t.runner, t.events.map fun e => ⟨app, run, e⟩)

end StepFlow.Engine
