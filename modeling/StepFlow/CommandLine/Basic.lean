import StepFlow.CommandLine.Help
import StepFlow.Engine.Rehearsal
import StepFlow.Flow.Reader
import StepFlow.Shell.Host

/-!
The command line: `compile` prints a program and its manifest or writes the program to a directory,
`run` puts a program in place, runs it and prints its events as lines. A failure is told with its
causes. What a command does to files is part of its outcome.
-/
namespace StepFlow.CommandLine
open Run Workspace

def dataDir : Param where
  name := some "data-dir"
  placeholder := "DATA_DIR"
  kind := .path
  about := "Path to the data directory (default: ~/.conduit)"

def flowFile : Param where
  name := none
  placeholder := "FLOW_FILE"
  kind := .path
  about := "Path to the flow file (JSON array of nodes)"
  required := true

def out : Param where
  name := some "out"
  placeholder := "OUT"
  kind := .path
  about := "Write the program to `<dir>/index.js` instead of stdout"

def app : Param where
  name := some "app"
  placeholder := "APP"
  kind := .text
  about := "App the run belongs to; its workspace is `<data-dir>/apps/<app>`"
  required := true

def timeoutMs : Param where
  name := some "timeout-ms"
  placeholder := "TIMEOUT_MS"
  kind := .count
  about := "Time the run out after this many milliseconds"

def context : Param where
  name := some "context"
  placeholder := "CONTEXT"
  kind := .pair
  about := "Program argument as key=value (repeatable)"
  repeatable := true

def interpreter : Param where
  name := some "interpreter"
  placeholder := "INTERPRETER"
  kind := .path
  about := "Interpreter used to run the program"
  fallback := some "node"

def compileGrammar : Grammar where
  name := "conduit compile"
  about := "Compile a flow and print the program and its dependency manifest"
  options := [dataDir, out]
  operands := [flowFile]

def runGrammar : Grammar where
  name := "conduit run"
  about := "Compile, materialize and run a flow, printing events as JSON lines"
  options := [app, dataDir, timeoutMs, context, interpreter]
  operands := [flowFile]

def commandName : Param where
  name := none
  placeholder := "COMMAND"
  kind := .text
  about := "Print help for the subcommand(s)"
  repeatable := true

def helpGrammar : Grammar where
  name := "conduit help"
  about := "Print this message or the help of the given subcommand(s)"
  operands := [commandName]
  helps := false

def topGrammar : Grammar where
  name := "conduit"
  about := "Conduit - compiles visual automation flows into programs and runs them"
  options := [dataDir]
  commands := [("compile", compileGrammar.about), ("run", runGrammar.about),
    ("help", helpGrammar.about)]
  version := some "conduit 0.0.1-alpha.0"

inductive Command where
  | compile (flow : String) (out : Option String)
  | run (flow app : String) (timeoutMs : Option Nat) (context : Context) (interpreter : String)

structure Call where
  dataDir : Option String
  command : Option Command

def pairsOf (values : List String) : List (String × Json) :=
  values.filterMap fun v => (parsePair v).toOption

/-- The place whose page `help` is asked for. -/
def helpPlace : List String → Except Halt Grammar
  | [] => .ok topGrammar
  | name :: more =>
    let place := match name with
      | "compile" => some compileGrammar
      | "run" => some runGrammar
      | "help" => some helpGrammar
      | _ => none
    match place, more with
    | none, _ => .error (.misuse (.unknownCommand name))
    | some g, [] => .ok g
    | some _, other :: _ => .error (.misuse (.unknownCommand other))

def readCommand : String → List String → Except Halt (Accepted × Command)
  | "compile", args => do
    let a ← compileGrammar.readAll args
    return (a, .compile ((valueOf? a flowFile).getD "") (valueOf? a out))
  | "run", args => do
    let a ← runGrammar.readAll args
    let timeout := (valueOf? a timeoutMs).bind fun v => (readCount v).toOption
    let pairs := Context.ofPairs (pairsOf (valuesOf a context))
    let interpreter := (valueOf? a interpreter <|> interpreter.fallback).getD ""
    return (a, .run ((valueOf? a flowFile).getD "") ((valueOf? a app).getD "") timeout pairs
      interpreter)
  | _, args => do
    let place ← helpPlace args
    throw (.help place)

/-- Reads a command line; an option that is common to all is taken from behind the command, if it
stands there. -/
def readCall (args : List String) : Except Halt Call := do
  let parsed ← topGrammar.read [] false [] none args
  let settled := (settle parsed.accepted parsed.pending).mapError Halt.misuse
  match parsed.command with
  | none => return ⟨valueOf? (← settled) dataDir, none⟩
  | some (name, rest) =>
    let (inner, command) ← readCommand name rest
    let a ← settled
    return ⟨valueOf? inner dataDir <|> valueOf? a dataDir, some command⟩

structure Failure where
  what : String
  causes : List String := []

def causeText (number : Option Nat) (cause : String) : String :=
  let lines := (Text.pieces '\n' cause.toList).map String.ofList
  let first := match number with
    | none => "    "
    | some n =>
      let digits := Text.natDigits n
      String.ofList (List.replicate (5 - digits.length) ' ' ++ digits) ++ ": "
  let other := match number with
    | none => "    "
    | some _ => "       "
  first ++ ("\n" ++ other).intercalate lines

def Failure.text (f : Failure) : String :=
  let causes := match f.causes with
    | [] => []
    | [c] => [causeText none c]
    | cs => cs.zipIdx.map fun (c, i) => causeText (some i) c
  let tail := if causes.isEmpty then "" else "\n\nCaused by:\n" ++ "\n".intercalate causes
  "Error: " ++ f.what ++ tail ++ "\n"

structure Outcome where
  exit : Nat
  stdout : String
  stderr : String
  files : FileTree

structure Surroundings where
  files : FileTree
  home : String
  path : List Place := []
  now : Nat := 0
  run : String

def failed (files : FileTree) (stdout stderr : String) (f : Failure) : Outcome :=
  { exit := 1, stdout, stderr := stderr ++ f.text, files }

def loadFlow (t : FileTree) (path : String) : Except Failure (List Flow.Node) :=
  match t.read path with
  | .error e => .error ⟨"failed to read flow file: " ++ path, [e.message]⟩
  | .ok text =>
    match Flow.read text with
    | .error e => .error ⟨"failed to parse flow file: " ++ path, [e.message text]⟩
    | .ok nodes => .ok nodes

def writeProgram (t : FileTree) (dir source : String) : FileTree × Except Failure String :=
  let path := joinPath dir programFile
  match t.makeDirectories dir with
  | (t, some e) => (t, .error ⟨"failed to create " ++ dir, [e.message]⟩)
  | (t, none) =>
    match t.write path source with
    | .error e => (t, .error ⟨"failed to write " ++ path, [e.message]⟩)
    | .ok t => (t, .ok path)

def compileFlow (t : FileTree) (dataDir flow : String) (out : Option String) : Outcome :=
  match loadFlow t flow with
  | .error f => failed t "" "" f
  | .ok nodes =>
    match Compile.compile (Engine.Config.ofDataDir dataDir).groupRoot nodes with
    | .error e => failed t "" "" ⟨"failed to compile flow", [e.message]⟩
    | .ok program =>
      let manifest := program.manifest.encode.pretty ++ "\n"
      match out with
      | none => { exit := 0, stdout := program.source, stderr := manifest, files := t }
      | some dir =>
        match writeProgram t dir program.source with
        | (t, .error f) => failed t "" "" f
        | (t, .ok path) =>
          { exit := 0, stdout := manifest, stderr := "Wrote program: " ++ path ++ "\n", files := t }

def processCauses (e : ProcessError) : List String :=
  e.message :: match e with
    | .spawn reason => [reason]
    | _ => []

def runCauses (e : Engine.Error) : List String :=
  e.message :: match e with
    | .compile e => [e.message]
    | .workspace (.file _ cause) => [cause.message]
    | .process e => processCauses e
    | _ => []

def moments : Nat := 1000000

def runFlow (s : Surroundings) (dataDir flow interpreter : String) (request : Engine.Request) :
    Outcome :=
  match loadFlow s.files flow with
  | .error f => failed s.files "" "" f
  | .ok nodes =>
    let config := { Engine.Config.ofDataDir dataDir with interpreter }
    let world : Shell.Host :=
      { files := s.files, path := s.path, vars := [("HOME", s.home)], clock := s.now }
    let start : Engine.Rehearsal Shell.Host := { config, world, newName := fun _ => s.run }
    let h := (start.run { request with nodes }).play moments
    let stdout := String.join (h.events.map fun e => e.encode.compact ++ "\n")
    match h.finished.head? with
    | some (_, .ok o) =>
      let ending := "Run " ++ o.run ++ " finished: " ++ o.state.name ++ "\n"
      if o.state = .success then { exit := 0, stdout, stderr := ending, files := h.world.files }
      else failed h.world.files stdout ending ⟨"run ended in state " ++ o.state.name, []⟩
    | some (_, .error e) => failed h.world.files stdout "" ⟨"run failed", runCauses e⟩
    | none => failed h.world.files stdout "" ⟨"run failed", []⟩

def perform (s : Surroundings) (args : List String) : Outcome :=
  match readCall args with
  | .error (.misuse e) => { exit := 2, stdout := "", stderr := e.message ++ "\n", files := s.files }
  | .error (.help place) => { exit := 0, stdout := place.page, stderr := "", files := s.files }
  | .error (.version text) => { exit := 0, stdout := text ++ "\n", stderr := "", files := s.files }
  | .ok call =>
    let dataDir := call.dataDir.getD (joinPath s.home ".conduit")
    match call.command with
    | none =>
      { exit := 0, stdout := "conduit - use --help to see available commands\n", stderr := "",
        files := s.files }
    | some (.compile flow out) => compileFlow s.files dataDir flow out
    | some (.run flow app timeoutMs context interpreter) =>
      runFlow s dataDir flow interpreter { app, nodes := [], context, timeoutMs }

end StepFlow.CommandLine
