import StepFlow.Run.World
import StepFlow.Shell.Exec

/-!
A process on a clock: its main part and what it has set going beside. What it writes is cut into
lines: a line ends at a line feed, before which one carriage return is dropped; text that is left
at the end of a stream is a line too. A stream ends when nobody holds it open any more, or at a
line that is no text. Output is waited for until half a second after the exit; after that, or when
both streams have ended before, the exit is told.
-/
namespace StepFlow.Shell
open Run Workspace

/-- Acts that go on by themselves, the next of them at a given time. -/
structure Worker where
  acts : List Act
  due : Nat
  holdsOut : Bool := true
  holdsErr : Bool := true
  deriving Repr, Inhabited

/-- One of the output streams, with the bytes of an unfinished line. -/
structure Pipe where
  unfinished : Bytes := []
  ended : Bool := false
  deriving Repr, Inhabited

structure Process where
  main : Option Worker
  others : List Worker := []
  stopped : Bool := false
  exitTime : Option Nat := none
  out : Pipe := {}
  err : Pipe := {}
  told : Bool := false
  unread : List Transport := []
  deriving Repr, Inhabited

/-- How long output may still come after the exit. -/
def drainTime : Nat := 500000

def lineText? (bytes : Bytes) : Option String :=
  decodeText? (if bytes.getLast? = some 13 then bytes.dropLast else bytes)

namespace Pipe

def feed (p : Pipe) : Bytes → Pipe × List String
  | [] => (p, [])
  | b :: rest =>
    if p.ended then (p, [])
    else if b = 10 then
      match lineText? p.unfinished.reverse with
      | none => ({ p with ended := true }, [])
      | some line =>
        let (p, lines) := feed { p with unfinished := [] } rest
        (p, line :: lines)
    else feed { p with unfinished := b :: p.unfinished } rest

def finish (p : Pipe) : Pipe × List String :=
  if p.ended then (p, [])
  else
    let line := if p.unfinished.isEmpty then [] else (decodeText? p.unfinished.reverse).toList
    ({ p with ended := true }, line)

end Pipe

namespace Process

def read (p : Process) (stream : Stream) (lines : List String) : Process :=
  { p with unread := p.unread ++ lines.map (.line stream) }

def feed (p : Process) (stream : Stream) (bytes : Bytes) : Process :=
  match stream with
  | .stdout =>
    let (out, lines) := p.out.feed bytes
    { p with out }.read .stdout lines
  | .stderr =>
    let (err, lines) := p.err.feed bytes
    { p with err }.read .stderr lines

def workers (p : Process) : List Worker := p.main.toList ++ p.others

/-- Ends the streams that nobody holds open any more, and tells the exit when it is time. -/
def close (p : Process) (now : Nat) : Process :=
  let p := if p.workers.any Worker.holdsOut then p
    else
      let (out, lines) := p.out.finish
      { p with out }.read .stdout lines
  let p := if p.workers.any Worker.holdsErr then p
    else
      let (err, lines) := p.err.finish
      { p with err }.read .stderr lines
  match p.exitTime with
  | none => p
  | some time =>
    if p.told then p
    else if (p.out.ended && p.err.ended) || time + drainTime ≤ now then
      { p with
        told := true
        out := { p.out with ended := true }
        err := { p.err with ended := true }
        unread := p.unread ++ [.exited] }
    else p

def exit (p : Process) (now : Nat) : Process :=
  close { p with main := none, exitTime := p.exitTime.or (some now) } now

def signal (p : Process) (now : Nat) : SignalEffect → Process
  | .none => p
  | .stop => { p with stopped := true }
  | .resume =>
    { p with
      stopped := false
      main := if p.stopped then p.main.map fun w => { w with due := max w.due now } else p.main }
  | .kill => if p.main.isSome then p.exit now else p

/-- What an act does when its time has come; `pid` is the number of the process. -/
def perform (p : Process) (pid now : Nat) : Act → Process
  | .wait _ | .join => p
  | .say .out bytes => p.feed .stdout bytes
  | .say .err bytes => p.feed .stderr bytes
  | .say _ _ => p
  | .fork acts holdsOut holdsErr =>
    { p with others := p.others ++ [{ acts, due := now, holdsOut, holdsErr }] }
  | .signal target number => if target = pid then p.signal now (signalEffect number) else p

/-- The worker with its next act behind it, which waits if the act says so. -/
def pass (w : Worker) : Worker :=
  match w.acts with
  | .wait time :: rest => { w with acts := rest, due := w.due + time }
  | _ :: rest => { w with acts := rest }
  | [] => w

def mainGoes (p : Process) : Option Worker :=
  if p.stopped then none
  else p.main.filter fun w =>
    match w.acts with
    | .join :: _ => p.others.isEmpty
    | _ => true

def next? (p : Process) : Option Nat :=
  let drained := if p.told then [] else (p.exitTime.map (· + drainTime)).toList
  ((p.mainGoes.toList ++ p.others).map Worker.due ++ drained).min?

def stepMain (p : Process) (pid : Nat) (w : Worker) : Process :=
  match w.acts with
  | [] => p.exit w.due
  | a :: _ => (({ p with main := some (pass w) }).perform pid w.due a)

/-- The first of the other workers that is due by a time goes on. -/
def stepOthers (p : Process) (pid time : Nat) : List Worker → List Worker → Process
  | _, [] => p
  | before, w :: rest =>
    if w.due ≤ time then
      match w.acts with
      | [] =>
        let main := p.main.map fun m =>
          match m.acts with
          | .join :: _ => { m with due := max m.due w.due }
          | _ => m
        close { p with others := before ++ rest, main } w.due
      | a :: _ => ({ p with others := before ++ pass w :: rest }).perform pid w.due a
    else stepOthers p pid time (before ++ [w]) rest

/-- What happens up to a time, one act after the other in the order of their times. -/
def advance (pid time : Nat) : Nat → Process → Process
  | 0, p => p
  | fuel + 1, p =>
    match p.next? with
    | none => p
    | some now =>
      if time < now then p
      else
        match p.mainGoes with
        | some w =>
          if w.due ≤ now then advance pid time fuel (p.stepMain pid w)
          else advance pid time fuel ((p.stepOthers pid now [] p.others).close now)
        | none => advance pid time fuel ((p.stepOthers pid now [] p.others).close now)

end Process

end StepFlow.Shell
