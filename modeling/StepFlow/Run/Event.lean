import StepFlow.Json.Decoder
import StepFlow.Run.State

/-!
What is reported of a run: its changes of state, its start and its end, and what its steps print.
A published event also names the app and the run that it belongs to.
-/
namespace StepFlow.Run
open Json

inductive StepCode where
  | success
  | error
  | log
  | errorLog
  deriving DecidableEq, Repr, Inhabited

def StepCode.name : StepCode → String
  | success => "success"
  | error => "error"
  | log => "log"
  | errorLog => "error_log"

def StepCode.names : List (String × StepCode) :=
  [("success", .success), ("error", .error), ("log", .log), ("error_log", .errorLog)]

structure StepStart where
  startTime : Json
  inputs : Json := .null
  stepInfo : Json := .null
  stepMeta : Json := .null
  deriving Repr, Inhabited

structure StepData where
  code : StepCode
  payload : Json
  deriving Repr, Inhabited

/-- Times are milliseconds since 1970; `app` is what is known of the app. -/
inductive Event where
  | stateChanged (state : State)
  | runStarted (startTime : Int) (app : Option Json)
  | stepStarted (start : StepStart)
  | stepData (data : StepData)
  | runEnded (endTime : Int) (state : State) (app : Option Json)
  deriving Repr, Inhabited

structure PublishedEvent where
  app : String
  run : String
  event : Event
  deriving Repr, Inhabited

namespace StepStart

def members (s : StepStart) : List (String × Json) :=
  [("startTime", s.startTime), ("inputs", s.inputs), ("stepInfo", s.stepInfo), ("stepMeta", s.stepMeta)]

def encode (s : StepStart) : Json := .obj s.members

end StepStart

namespace StepData

def members (d : StepData) : List (String × Json) :=
  [("code", .str d.code.name), ("payload", d.payload)]

def encode (d : StepData) : Json := .obj d.members

end StepData

namespace Event

inductive Kind where
  | stateChanged
  | runStarted
  | stepStarted
  | stepData
  | runEnded
  deriving DecidableEq, Repr

def Kind.names : List (String × Kind) :=
  [("state_changed", .stateChanged), ("run_started", .runStarted), ("step_started", .stepStarted),
    ("step_data", .stepData), ("run_ended", .runEnded)]

def Kind.record : Kind → Record
  | stateChanged => ⟨"variant RunEvent::StateChanged", ["state"]⟩
  | runStarted => ⟨"variant RunEvent::RunStarted", ["start_time", "meta"]⟩
  | stepStarted => ⟨"StepStart", ["startTime", "inputs", "stepInfo", "stepMeta"]⟩
  | stepData => ⟨"StepData", ["code", "payload"]⟩
  | runEnded => ⟨"variant RunEvent::RunEnded", ["end_time", "state", "meta"]⟩

def members : Event → List (String × Json)
  | stateChanged state => [("event", .str "state_changed"), ("state", .str state.name)]
  | runStarted startTime app =>
    [("event", .str "run_started"), ("start_time", .num (.int startTime))] ++
      optional "meta" id app
  | stepStarted start => ("event", .str "step_started") :: start.members
  | stepData data => ("event", .str "step_data") :: data.members
  | runEnded endTime state app =>
    [("event", .str "run_ended"), ("end_time", .num (.int endTime)), ("state", .str state.name)] ++
      optional "meta" id app

def encode (e : Event) : Json := .obj e.members

structure Fields where
  state : Option State := none
  startTime : Option Int := none
  endTime : Option Int := none
  app : Option (Option Json) := none
  stepStart : Option Json := none
  inputs : Option Json := none
  stepInfo : Option Json := none
  stepMeta : Option Json := none
  code : Option StepCode := none
  payload : Option Json := none

def Fields.slot (p : Fields) : String → Slot Fields
  | "state" => once "state" p.state (.variant State.names none) fun a => { p with state := some a }
  | "start_time" => once "start_time" p.startTime .int fun a => { p with startTime := some a }
  | "end_time" => once "end_time" p.endTime .int fun a => { p with endTime := some a }
  | "meta" => once "meta" p.app (.option .any) fun a => { p with app := some a }
  | "startTime" => once "startTime" p.stepStart .any fun a => { p with stepStart := some a }
  | "inputs" => once "inputs" p.inputs .any fun a => { p with inputs := some a }
  | "stepInfo" => once "stepInfo" p.stepInfo .any fun a => { p with stepInfo := some a }
  | "stepMeta" => once "stepMeta" p.stepMeta .any fun a => { p with stepMeta := some a }
  | "code" => once "code" p.code (.variant StepCode.names none) fun a => { p with code := some a }
  | "payload" => once "payload" p.payload .any fun a => { p with payload := some a }
  | _ => .unknown

def Fields.finish (kind : Kind) (form : Form) (p : Fields) : Decoding Event := do
  let r := kind.record
  match kind with
  | .stateChanged => return .stateChanged (← r.require form "state" p.state)
  | .runStarted => return .runStarted (← r.require form "start_time" p.startTime) p.app.join
  | .stepStarted =>
    let startTime ← r.require form "startTime" p.stepStart
    return .stepStarted ⟨startTime, p.inputs.getD .null, p.stepInfo.getD .null,
      p.stepMeta.getD .null⟩
  | .stepData =>
    let code ← r.require form "code" p.code
    return .stepData ⟨code, ← r.require form "payload" p.payload⟩
  | .runEnded =>
    let endTime ← r.require form "end_time" p.endTime
    return .runEnded endTime (← r.require form "state" p.state) p.app.join

def contentDecoder (kind : Kind) : Decoder Event :=
  kind.record.decoder {} Fields.slot (Fields.finish kind)

def Kind.tagging : Tagging Kind := ⟨"RunEvent", "event", Kind.names⟩

def decoder : Decoder Event := Kind.tagging.decoder fun kind => (contentDecoder kind).ofJson

end Event

namespace PublishedEvent

def encode (e : PublishedEvent) : Json :=
  .obj ([("app_id", .str e.app), ("run_id", .str e.run)] ++ e.event.members)

structure Partial where
  app : Option String := none
  run : Option String := none

def record : Record := ⟨"ExecutionEvent", ["app_id", "run_id"]⟩

def Partial.slot (p : Partial) : String → Slot Partial
  | "app_id" => once "app_id" p.app .string fun a => { p with app := some a }
  | "run_id" => once "run_id" p.run .string fun a => { p with run := some a }
  | _ => .unknown

def Partial.finish (p : Partial) (ms : List (String × Json)) : Decoding PublishedEvent := do
  let app ← record.require .object "app_id" p.app
  let run ← record.require .object "run_id" p.run
  let event ← Event.decoder.ofJson (.obj ms)
  return ⟨app, run, event⟩

def decoder : Decoder PublishedEvent := record.flatDecoder {} Partial.slot Partial.finish

end PublishedEvent

end StepFlow.Run
