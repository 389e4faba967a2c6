import StepFlow.Run.World

/-!
One run in a world, with the calls that start it and what has been noted since the last report.
Between two instructions the calls go on for as long as none of them has to wait, unless that is
held back.
-/
namespace StepFlow.Run

structure Rehearsal (σ : Type) where
  config : Config
  world : σ
  runner : Runner := {}
  attempts : List Attempt := []
  events : List Event := []
  finished : List (Except ProcessError State) := []

namespace Rehearsal

variable {σ : Type} [World σ]

def start (h : Rehearsal σ) (context : Context) : Rehearsal σ :=
  { h with attempts := h.attempts ++ [{ config := h.config, context }] }

def control (h : Rehearsal σ) (c : Control) : Rehearsal σ × Except ProcessError Unit :=
  let (s, world) := h.runner.controlIn c h.world
  ({ h with runner := s.runner, world, events := h.events ++ s.events }, s.result)

def dispose (h : Rehearsal σ) : Rehearsal σ := { h with runner := h.runner.dispose }

def settle (h : Rehearsal σ) : Rehearsal σ :=
  h.attempts.foldl (fun h a =>
    let s := a.run (patience h.world) h.world h.runner []
    let h := { h with world := s.world, runner := s.runner, events := h.events ++ s.events }
    match s.attempt.phase with
    | .returned result => { h with finished := h.finished ++ [result] }
    | _ => { h with attempts := h.attempts ++ [s.attempt] }) { h with attempts := [] }

/-- Lets time go on until something holds, nothing will happen any more, or the moments are used
up. -/
def playUntil (holds : Rehearsal σ → Bool) : Nat → Rehearsal σ → Rehearsal σ
  | 0, h => h.settle
  | fuel + 1, h =>
    let h := h.settle
    if holds h then h
    else match World.next? h.world with
      | none => h
      | some time => playUntil holds fuel { h with world := World.advance time h.world }

def reported (h : Rehearsal σ) : Rehearsal σ := { h with events := [], finished := [] }

end Rehearsal

end StepFlow.Run
