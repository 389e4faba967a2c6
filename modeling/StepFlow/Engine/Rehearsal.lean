import StepFlow.Engine.Call
import StepFlow.Queue.Basic

/-!
A coordinator in a world: direct runs, queued runs, control calls and time limits. All that goes
on is cut into turns, which are taken in the order in which they came up; a turn lasts until it
has to wait. Work on files is done when nothing else can go on.
-/
namespace StepFlow.Engine
open Run

inductive Turn where
  | go (run : String)
  | start (request : Request)
  | finish
  | limit (app run : String) (ms : Nat)
  | expire (app run : String)

namespace Turn

def goesOn (run : String) : Turn → Bool
  | go r => r == run
  | _ => false

end Turn

structure Limit where
  app : String
  run : String
  deadline : Nat

structure Rehearsal (σ : Type) where
  config : Config
  world : σ
  shared : Shared := {}
  queue : Queue Request := {}
  calls : List Call := []
  queued : List String := []
  turns : List Turn := []
  filing : List String := []
  limits : List Limit := []
  nextRun : Nat := 0
  newName : Nat → String := fun n => String.ofList (Text.natDigits n)
  events : List PublishedEvent := []
  finished : List (String × Except Error Outcome) := []

namespace Rehearsal

variable {σ : Type} [World σ]

def later (h : Rehearsal σ) (turn : Turn) : Rehearsal σ := { h with turns := h.turns ++ [turn] }

def wake (h : Rehearsal σ) : Rehearsal σ :=
  let ready := h.calls.filter fun c =>
    c.waits && !h.turns.any (Turn.goesOn c.run) && (c.step? h.config h.world h.shared).isSome
  { h with turns := h.turns ++ ready.map fun c => .go c.run }

def call (h : Rehearsal σ) (request : Request) (queued : Bool) : Rehearsal σ :=
  let run := h.newName h.nextRun
  { h with
    calls := h.calls ++ [{ run, request }]
    queued := if queued then run :: h.queued else h.queued
    nextRun := h.nextRun + 1
    turns := h.turns ++ [.go run] }

def run (h : Rehearsal σ) (request : Request) : Rehearsal σ := h.call request false

def drain (h : Rehearsal σ) : Rehearsal σ :=
  let (queue, drained) := h.queue.drain
  let h := { h with queue }
  match drained with
  | .started request => h.later (.start request)
  | .busy | .idle => h

def enqueue (h : Rehearsal σ) (entrance : Entrance) (request : Request) : Rehearsal σ :=
  drain { h with queue := h.queue.push entrance request }

def control (h : Rehearsal σ) (c : Control) : Rehearsal σ × Except Error Unit :=
  let (world, shared, events, result) := Engine.control c h.world h.shared
  (wake { h with world, shared, events := h.events ++ events }, result)

def changeWorld (h : Rehearsal σ) (world : σ) : Rehearsal σ := wake { h with world }

def obey (h : Rehearsal σ) (c : Call) : Option LimitOrder → Rehearsal σ
  | none => h
  | some (.start ms) => h.later (.limit c.request.app c.run ms)
  | some .cancel => { h with limits := h.limits.filter fun l => l.run != c.run }

def rest (h : Rehearsal σ) (c : Call) : Rehearsal σ :=
  match c.phase with
  | .returned result =>
    if h.queued.contains c.run then h.later .finish
    else { h with finished := h.finished ++ [(c.request.app, result)] }
  | _ =>
    { h with
      calls := h.calls ++ [c]
      filing := if c.wantsFiles then h.filing ++ [c.run] else h.filing }

/-- Steps of a call until it has to wait. -/
def go : Nat → Rehearsal σ → Call → Rehearsal σ
  | 0, h, c => h.rest c
  | fuel + 1, h, c =>
    match c.step? h.config h.world h.shared with
    | none => h.rest c
    | some s =>
      let h := { h with world := s.world, shared := s.shared, events := h.events ++ s.events }
      let h := h.obey s.call s.limit
      if s.call.wantsFiles then h.rest s.call else go fuel h s.call

def goOn (h : Rehearsal σ) (run : String) : Rehearsal σ :=
  match h.calls.find? fun c => c.run == run with
  | none => h
  | some c =>
    go (patience h.world + 16) { h with calls := h.calls.filter fun c => c.run != run } c

def expire (h : Rehearsal σ) (app run : String) : Rehearsal σ :=
  let (world, shared, events) := Engine.expire app run h.world h.shared
  { h with world, shared, events := h.events ++ events }

def take (h : Rehearsal σ) : Turn → Rehearsal σ
  | .go run => h.goOn run
  | .start request => h.call request true
  | .finish => drain { h with queue := h.queue.finish }
  | .limit app run ms =>
    if ms = 0 then h.expire app run
    else { h with limits := ⟨app, run, World.now h.world + ms * 1000⟩ :: h.limits }
  | .expire app run => h.expire app run

def takeAll : Nat → Rehearsal σ → Rehearsal σ
  | 0, h => h
  | fuel + 1, h =>
    match h.turns, h.filing with
    | turn :: turns, _ => takeAll fuel (wake (take { h with turns } turn))
    | [], run :: filing => takeAll fuel (wake (goOn { h with filing } run))
    | [], [] => h

/-- A bound on the turns that can be taken before time goes on: a request needs less than ten. -/
def patience (h : Rehearsal σ) : Nat :=
  10 * (h.calls.length + h.queue.size + h.turns.length + h.limits.length + 1)

def settle (h : Rehearsal σ) : Rehearsal σ := takeAll h.patience h

def advance (h : Rehearsal σ) (time : Nat) : Rehearsal σ :=
  let (due, limits) := h.limits.partition fun l => l.deadline ≤ time
  wake { h with
    world := World.advance time h.world
    limits
    turns := h.turns ++ due.map fun l => .expire l.app l.run }

def next? (h : Rehearsal σ) : Option Nat :=
  ((World.next? h.world).toList ++ h.limits.map Limit.deadline).min?

/-- Lets time go on until all calls have returned, nothing will happen any more, or the moments
are used up. -/
def play : Nat → Rehearsal σ → Rehearsal σ
  | 0, h => h.settle
  | fuel + 1, h =>
    let h := h.settle
    if h.calls.isEmpty then h
    else match h.next? with
      | none => h
      | some time => play fuel (h.advance time)

def reported (h : Rehearsal σ) : Rehearsal σ := { h with events := [], finished := [] }

end Rehearsal

end StepFlow.Engine
