import StepFlow.Run.Runner
import StepFlow.Workspace.FileTree

/-!
What a run needs of the world: its files, its clock, and processes. A process is asked for, comes
about or not, says something from time to time, and takes signals. The moves of a run in a world
are those of `Phase` and `Runner.control`, with the world's answers put in.
-/
namespace StepFlow.Run
open Workspace

/-- Times are counted in microseconds. What can be heard before time goes on is bounded by
`audible`. -/
class World (σ : Type) where
  files : σ → FileTree
  putFiles : FileTree → σ → σ
  now : σ → Nat
  next? : σ → Option Nat
  advance : Nat → σ → σ
  launch : LaunchSpec → σ → σ
  spawned? : σ → Option (σ × Except ProcessError Unit)
  heard? : σ → Option (σ × Option Transport)
  audible : σ → Nat
  deliver : Signal → σ → σ × Option ProcessError
  leave : σ → σ

structure Attempt where
  config : Config
  context : Context
  phase : Phase := .begin

section
variable {σ : Type} [World σ]

def issue (w : σ) : Option Signal → σ
  | some signal => (World.deliver signal w).1
  | none => w

def Runner.controlIn (r : Runner) (c : Control) (w : σ) :
    Section (Except ProcessError Unit) × σ :=
  let s := r.control c fun signal => (World.deliver signal w).2
  (s, issue w s.signal)

structure Stepped (σ : Type) where
  attempt : Attempt
  world : σ
  runner : Runner
  events : List Event := []

def Attempt.step? (a : Attempt) (w : σ) (r : Runner) : Option (Stepped σ) :=
  match a.phase with
  | .spawning =>
    match World.spawned? w with
    | some (w, result) => some ⟨{ a with phase := .spawned result }, w, r, []⟩
    | none => none
  | .reading =>
    match World.heard? w with
    | some (w, said) =>
      let m := Phase.receive r said
      some ⟨{ a with phase := m.phase }, w, m.runner, m.events⟩
    | none => none
  | phase =>
    match phase.step a.config.app (World.now w / 1000) r with
    | none => none
    | some m =>
      let w := issue w m.signal
      let w := if m.launches then World.launch (a.config.launchSpec a.context) w else w
      let w := match phase with
        | .finish => World.leave w
        | _ => w
      some ⟨{ a with phase := m.phase }, w, m.runner, m.events⟩

def Attempt.waits (a : Attempt) : Bool :=
  match a.phase with
  | .spawning | .reading => true
  | _ => false

/-- A bound on the steps that a call can make before it has to wait. -/
def patience (w : σ) : Nat := 2 * World.audible w + 16

/-- Steps of a call until it has to wait or has returned, or the steps are used up. -/
def Attempt.run : Nat → Attempt → σ → Runner → List Event → Stepped σ
  | 0, a, w, r, events => ⟨a, w, r, events⟩
  | fuel + 1, a, w, r, events =>
    match a.step? w r with
    | none => ⟨a, w, r, events⟩
    | some s => run fuel s.attempt s.world s.runner (events ++ s.events)

end

end StepFlow.Run
