import StepFlow.Run.Event

/-!
The lines that a program prints. A line is about a step if it is a JSON object with a truthy start
or end time; an end time on the error stream means that the step failed. Any other line is a log
line of its stream.
-/
namespace StepFlow.Run

inductive Stream where
  | stdout
  | stderr
  deriving DecidableEq, Repr, Inhabited

def Stream.endCode : Stream → StepCode
  | .stdout => .success
  | .stderr => .error

def Stream.logCode : Stream → StepCode
  | .stdout => .log
  | .stderr => .errorLog

inductive Line where
  | start (start : StepStart)
  | data (data : StepData)
  deriving Repr, Inhabited

def truthy? (key : String) (j : Json) : Option Json := (j.get? key).filter Json.isTruthy

def logLine (stream : Stream) (text : String) : Line := .data ⟨stream.logCode, .str text⟩

def stepLine? (stream : Stream) (j : Json) : Option Line :=
  match truthy? "startTime" j with
  | some startTime =>
    some (.start ⟨startTime, (j.get? "inputs").getD .null, (j.get? "info").getD .null,
      (j.get? "meta").getD .null⟩)
  | none =>
    match truthy? "endTime" j with
    | some _ => some (.data ⟨stream.endCode, j⟩)
    | none => none

def classify (stream : Stream) (text : String) : Line :=
  match Json.readSettled text with
  | .error _ => logLine stream text
  | .ok j =>
    if j.isObject then (stepLine? stream j).getD (logLine stream text) else logLine stream text

def Line.event : Line → Event
  | .start s => .stepStarted s
  | .data d => .stepData d

def Line.isFailure : Line → Bool
  | .data d => d.code == .error
  | .start _ => false

end StepFlow.Run
