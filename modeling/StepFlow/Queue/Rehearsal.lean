import StepFlow.Queue.Basic

/-!
Queues with jobs whose course is laid down: a job tells when it begins, passes its gate if it has
one, submits further jobs, and tells that it ends. How it ends, well or not, makes no difference
to its queue. All that goes on is cut into turns, which are taken in the order in which they came
up; a turn can bring up others behind those that wait.
-/
namespace StepFlow.Queue

/-- A job: the queue it is for, where it is put in, and what it submits after its gate. -/
inductive Job where
  | mk (name : String) (home : Nat) (entrance : Entrance) (gated : Bool) (submits : List Job)
  deriving Inhabited

namespace Job

def name : Job → String
  | mk name _ _ _ _ => name

def home : Job → Nat
  | mk _ home _ _ _ => home

def entrance : Job → Entrance
  | mk _ _ entrance _ _ => entrance

def gated : Job → Bool
  | mk _ _ _ gated _ => gated

def submits : Job → List Job
  | mk _ _ _ _ submits => submits

mutual

/-- The number of jobs that come of a job, itself included. -/
def weight : Job → Nat
  | mk _ _ _ _ submits => weights submits + 1

def weights : List Job → Nat
  | [] => 0
  | job :: rest => job.weight + weights rest

end

end Job

structure Ticket where
  job : Job
  gate : Option Nat

inductive Turn where
  | start (ticket : Ticket)
  | begin (ticket : Ticket)
  | proceed (ticket : Ticket)
  | finish (queue : Nat)
  | look (queue : Nat) (name : String)

structure Rehearsal where
  queues : List (Queue Ticket) := [{}, {}]
  turns : List Turn := []
  gates : List (String × Nat) := []
  opened : List Nat := []
  nextGate : Nat := 0
  halted : List Ticket := []
  watchers : List (Nat × String) := []
  log : List (Nat × String) := []
  idle : List String := []

namespace Rehearsal

def queue (r : Rehearsal) (i : Nat) : Queue Ticket := r.queues.getD i {}

def setQueue (r : Rehearsal) (i : Nat) (q : Queue Ticket) : Rehearsal :=
  { r with queues := r.queues.set i q }

def later (r : Rehearsal) (turn : Turn) : Rehearsal := { r with turns := r.turns ++ [turn] }

def tell (r : Rehearsal) (i : Nat) (line : String) : Rehearsal :=
  { r with log := r.log ++ [(i, line)] }

def drain (r : Rehearsal) (i : Nat) : Rehearsal :=
  let (q, drained) := (r.queue i).drain
  let r := r.setQueue i q
  match drained with
  | .busy => r
  | .started ticket => r.later (.start ticket)
  | .idle =>
    let (told, others) := r.watchers.partition fun w => w.1 == i
    { r with watchers := others, turns := r.turns ++ told.map fun (i, name) => .look i name }

def build (r : Rehearsal) (job : Job) : Rehearsal × Ticket :=
  if job.gated then
    ({ r with gates := (job.name, r.nextGate) :: r.gates, nextGate := r.nextGate + 1 },
      ⟨job, some r.nextGate⟩)
  else (r, ⟨job, none⟩)

def submit (r : Rehearsal) (job : Job) : Rehearsal :=
  let (r, ticket) := r.build job
  let r := r.setQueue job.home ((r.queue job.home).push job.entrance ticket)
  r.drain job.home

def isOpen (r : Rehearsal) : Option Nat → Bool
  | none => true
  | some gate => r.opened.contains gate

def proceed (r : Rehearsal) (job : Job) : Rehearsal :=
  let r := job.submits.foldl submit r
  (r.tell job.home ("end " ++ job.name)).later (.finish job.home)

def take (r : Rehearsal) : Turn → Rehearsal
  | .start ticket => r.later (.begin ticket)
  | .begin ticket =>
    let r := r.tell ticket.job.home ("start " ++ ticket.job.name)
    if r.isOpen ticket.gate then r.proceed ticket.job
    else { r with halted := r.halted ++ [ticket] }
  | .proceed ticket => r.proceed ticket.job
  | .finish i => (r.setQueue i (r.queue i).finish).drain i
  | .look i name =>
    if (r.queue i).isIdle then { r with idle := r.idle ++ [name] }
    else { r with watchers := r.watchers ++ [(i, name)] }

def release? (r : Rehearsal) (name : String) : Option Rehearsal :=
  match r.gates.lookup name with
  | none => none
  | some gate =>
    if r.opened.contains gate then none
    else
      let (freed, others) := r.halted.partition fun t => t.gate == some gate
      some { r with
        opened := gate :: r.opened
        halted := others
        turns := r.turns ++ freed.map .proceed }

def waitIdle (r : Rehearsal) (i : Nat) (name : String) : Rehearsal := r.later (.look i name)

def takeAll : Nat → Rehearsal → Rehearsal
  | 0, r => r
  | fuel + 1, r =>
    match r.turns with
    | [] => r
    | turn :: rest => takeAll fuel (take { r with turns := rest } turn)

def jobs (r : Rehearsal) : Nat :=
  let waiting := r.queues.flatMap fun q => q.waiting.map fun t => t.job.weight
  let turning := r.turns.map fun
    | .start t | .begin t | .proceed t => t.job.weight
    | _ => 0
  (waiting ++ turning).foldl Nat.add 0

/-- A bound on the turns to be taken: a job needs four at most, and its end lets everybody look who
waits for that. -/
def patience (r : Rehearsal) : Nat :=
  let lookers := r.turns.length + r.watchers.length
  (r.jobs + r.turns.length + 1) * (lookers + 5)

def settle (r : Rehearsal) : Rehearsal := takeAll r.patience r

def reported (r : Rehearsal) : Rehearsal := { r with log := [], idle := [] }

end Rehearsal

end StepFlow.Queue
