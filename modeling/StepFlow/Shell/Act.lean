import StepFlow.Workspace.FileTree

/-!
What a program does in the course of time, as far as it can be seen from outside, and bytes as the
text that programs exchange. Times are counted in microseconds.
-/
namespace StepFlow.Shell
open Workspace

abbrev Bytes := List UInt8

def encodeText (s : String) : Bytes := s.toUTF8.toList

def decodeText? (bytes : Bytes) : Option String := String.fromUTF8? ⟨bytes.toArray⟩

/-- The text that bytes stand for, with a replacement for each byte that makes none. -/
def decodeLossy (bytes : Bytes) : String :=
  (decodeText? bytes).getD
    (String.ofList (bytes.map fun b => if b < 128 then Char.ofNat b.toNat else '\ufffd'))

inductive Sink where
  | out
  | err
  | buffer
  | nowhere
  | file (place : Place)
  deriving DecidableEq, Repr, Inhabited

inductive Act where
  | wait (time : Nat)
  | say (sink : Sink) (bytes : Bytes)
  | fork (acts : List Act) (holdsOut holdsErr : Bool)
  | join
  | signal (pid number : Nat)
  deriving Repr, Inhabited

def signalNumbers : List (String × Nat) :=
  [("EXIT", 0), ("HUP", 1), ("INT", 2), ("QUIT", 3), ("KILL", 9), ("USR1", 10), ("USR2", 12),
    ("PIPE", 13), ("ALRM", 14), ("TERM", 15), ("CONT", 18), ("STOP", 19)]

def signalNumber? (s : String) : Option Nat :=
  let name := (s.dropPrefix "SIG").toString
  (signalNumbers.lookup name).or s.toNat?

inductive SignalEffect where
  | none
  | stop
  | resume
  | kill
  deriving DecidableEq, Repr

def signalEffect (number : Nat) : SignalEffect :=
  if number = 0 then .none
  else if number = 18 then .resume
  else if number = 19 then .stop
  else .kill

end StepFlow.Shell
