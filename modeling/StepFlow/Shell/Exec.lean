import StepFlow.Shell.Builtins
import StepFlow.Shell.Fields
import StepFlow.Shell.Formula
import StepFlow.Shell.Parser
import StepFlow.Shell.Program

/-!
Running scripts and programs. The outcome of a script is a list of acts, so that what it does can be
laid over a clock afterwards. All functions take fuel, which bounds the turns of loops and the
depth of calls.
-/
namespace StepFlow.Shell
open Workspace

/-! ### Redirections -/

def openFile (s : State) (fd : Nat) (append : Bool) (path : String) : State :=
  if path == "/dev/null" then s.setSink fd .nowhere
  else if path == "/dev/stdout" then s.setSink fd (s.sink 1)
  else if path == "/dev/stderr" then s.setSink fd (s.sink 2)
  else
    let opened := if append && s.files.contains path then .ok s.files else s.files.write path ""
    match opened, s.files.locate path with
    | .ok files, .ok place => { s with files, status := 0 }.setSink fd (.file place)
    | .error .isDirectory, _ => s.report ("cannot create " ++ path ++ ": Is a directory") 2
    | _, _ => s.report ("cannot create " ++ path ++ ": Directory nonexistent") 2

def openInput (s : State) (path : String) : State :=
  if path == "/dev/null" then { s with input := [], status := 0 }
  else match s.files.read path with
    | .ok contents => { s with input := encodeText contents, status := 0 }
    | .error _ => s.report ("cannot open " ++ path ++ ": No such file") 2

/-- Copies a descriptor, or ends it. -/
def copySink (s : State) (fd : Nat) (source : String) : State :=
  if source == "-" then (s.setSink fd .nowhere).done 0
  else match source.toNat? with
    | some n => (if n = 0 || fd = 0 then s else s.setSink fd (s.sink n)).done 0
    | none => s.report "Syntax error: Bad fd number" 2

def afterBody (s : State) : Bool × State :=
  match s.course with
  | .on => (true, s)
  | .left | .returned => (false, s)
  | .brokenOut n => (false, { s with course := if n ≤ 1 then .on else .brokenOut (n - 1) })
  | .skippedOn n =>
    if n ≤ 1 then (true, { s with course := .on })
    else (false, { s with course := .skippedOn (n - 1) })

/-- A command that has failed ends a strict script, unless its failure is looked at. -/
def State.settle (s : State) : State :=
  if s.strict && !s.tested && s.isOn && s.status != 0 then s.leave else s

/-- The state behind a function: arguments and variables of its own are given up. -/
def State.leaveFunction (before s : State) : State :=
  let restored := s.saved.foldl (fun s (name, old) =>
    match old with
    | some value => s.setVar name value
    | none => s.unsetVar name) s
  { restored with
    args := before.args
    saved := before.saved
    depth := before.depth
    loops := before.loops
    course := if s.course == .returned then .on else s.course }

/-! ### Running -/

mutual

def expandPiece : Nat → State → Piece → State × List Fragment
  | 0, s, _ => (s, [])
  | fuel + 1, s, p =>
    match p with
    | .text t quoted => (s, [if quoted then .kept t else .plain t])
    | .param "@" true => (s, argFragments s.args)
    | .param name quoted =>
      match paramValue? s name with
      | some value => (s, [valueFragment quoted value])
      | none =>
        if s.strictNames && name != "@" && name != "*" then
          ((s.report (name ++ ": parameter not set") 2).leave, [])
        else (s, if quoted then [.kept ""] else [])
    | .orElse name fallback ifEmpty word quoted =>
      let value := (paramValue? s name).filter fun v => !(ifEmpty && v == "")
      match value, fallback with
      | some _, .presence | none, .stand => expand fuel s word
      | some value, _ => (s, [valueFragment quoted value])
      | none, .presence => (s, if quoted then [.kept ""] else [])
      | none, .assign =>
        let (s, fs) := expand fuel s word
        let value := joinFragments fs
        (s.setVar name value, [valueFragment quoted value])
      | none, .fail =>
        let (s, fs) := expand fuel s word
        let why := if word.isEmpty then "parameter not set" else joinFragments fs
        ((s.report (name ++ ": " ++ why) 2).leave, [])
    | .trimmed name atEnd greatest pattern quoted =>
      let (s, fs) := expand fuel s pattern
      let value := trimFitting (patternOf fs) atEnd greatest ((paramValue? s name).getD "")
      (s, [valueFragment quoted value])
    | .malformed => ((s.report "Bad substitution" 2).leave, [])
    | .length name quoted =>
      (s, [valueFragment quoted (toString ((paramValue? s name).getD "").length)])
    | .command body quoted =>
      let part := runPart fuel { s with acts := [], sinks := (1, .buffer) :: s.sinks } body
      let (bytes, acts) := State.buffered part.acts.reverse
      let s := s.rejoin { part with acts := acts.reverse ++ s.acts }
      let text := (decodeLossy bytes).toList.reverse.dropWhile (· == '\n')
      (s, [valueFragment quoted (String.ofList text.reverse)])
    | .arith formula quoted =>
      let (s, fs) := expand fuel s formula
      let text := joinFragments fs
      match Formula.value (fun name => intOf ((s.var name).getD "0")) text with
      | .ok n => (s, [valueFragment quoted (toString n)])
      | .error e =>
        let why := "arithmetic expression: " ++ e.message ++ ": \"" ++ text ++ "\""
        ((s.report why 2).leave, [])

def expand : Nat → State → Word → State × List Fragment
  | 0, s, _ => (s, [])
  | _ + 1, s, [] => (s, [])
  | fuel + 1, s, p :: rest =>
    let (s, here) := expandPiece fuel s p
    let (s, more) := expand fuel s rest
    (s, here ++ more)

def expandWords : Nat → State → List Word → State × List String
  | 0, s, _ => (s, [])
  | _ + 1, s, [] => (s, [])
  | fuel + 1, s, w :: rest =>
    let (s, fs) := expand fuel s w
    let here := (Fields.ofFragments fs).flatMap (Field.words s.files)
    let (s, more) := expandWords fuel s rest
    (s, here ++ more)

def applySettings : Nat → State → List (String × Word) → State
  | 0, s, _ => s
  | _ + 1, s, [] => s
  | fuel + 1, s, (name, w) :: rest =>
    let (s, fs) := expand fuel s w
    applySettings fuel (s.setVar name (joinFragments fs)) rest

def redirect : Nat → State → List Redirect → State
  | 0, s, _ => s
  | _ + 1, s, [] => s.done 0
  | fuel + 1, s, r :: rest =>
    let s := match r with
      | .write fd append w =>
        let (s, fs) := expand fuel s w
        openFile s fd append (joinFragments fs)
      | .read w =>
        let (s, fs) := expand fuel s w
        openInput s (joinFragments fs)
      | .here w =>
        let (s, fs) := expand fuel s w
        { s with input := encodeText (joinFragments fs), status := 0 }
      | .copy fd w =>
        let (s, fs) := expand fuel s w
        copySink s fd (joinFragments fs)
    if s.status == 0 then redirect fuel s rest else s

def runProgram : Nat → State → Program → String → List String → State
  | 0, s, _, _, _ => s
  | fuel + 1, s, program, name, args =>
    match program with
    | .tool t => t args { s with name }
    | .runner =>
      match args with
      | [] => s.done 0
      | name :: args => runNamed fuel s name args
    | .shell =>
      match args with
      | "-c" :: script :: rest =>
        runScript fuel { s with name := rest.head?.getD name, args := rest.drop 1 } script
      | [] => runScript fuel { s with name, args := [] } (decodeLossy s.input)
      | path :: args =>
        match s.files.read path with
        | .ok script => runScript fuel { s with name := path, args } script
        | .error _ =>
          s.complain (name ++ ": 0: cannot open " ++ path ++ ": No such file") 2
    | .file path _ contents =>
      match interpreter? contents with
      | some (interpreter, extra) => runNamed fuel s interpreter (extra ++ path :: args)
      | none => runScript fuel { s with name := path, args } contents

def runNamed : Nat → State → String → List String → State
  | 0, s, _, _ => s
  | fuel + 1, s, name, args =>
    match findProgram s.files s.path name with
    | .ok program => runProgram fuel s program name args
    | .error e =>
      let permitted := e != .permission
      s.report (name ++ if permitted then ": not found" else ": Permission denied")
        (if permitted then 127 else 126)

def runWords : Nat → State → List String → State
  | 0, s, _ => s
  | _ + 1, s, [] => s
  | fuel + 1, s, name :: args =>
    match name with
    | "exec" =>
      match args with
      | [] => s.done 0
      | name :: args =>
        match findProgram s.files s.path name with
        | .ok _ => (runNamed fuel s.apart name args).leave
        | .error e =>
          let why := if e == .permission then ": Permission denied" else ": not found"
          (s.report ("exec: " ++ name ++ why) (if e == .permission then 126 else 127)).leave
    | "eval" => runText fuel s (" ".intercalate args)
    | "command" => runWords fuel { s with functions := [] } args
    | "." =>
      let path := args.head?.getD ""
      match s.files.read path with
      | .ok script =>
        let ran := runText fuel s script
        if ran.course == .returned then { ran with course := .on } else ran
      | .error _ => (s.report (".: cannot open " ++ path ++ ": No such file") 2).leave
    | name =>
      match s.functions.lookup name, builtins.lookup name with
      | some body, _ =>
        s.leaveFunction
          (runCommand fuel { s with args, saved := [], depth := s.depth + 1, loops := 0 } body)
      | none, some tool => tool args s
      | none, none =>
        s.rejoin (runNamed fuel { s.apart with pid := s.pid + 1 } name args)

def runCommand : Nat → State → Command → State
  | 0, s, _ => s
  | fuel + 1, s, c =>
    match c with
    | .simple line settings words =>
      let (s, ws) := expandWords fuel { s with line } words
      if !s.isOn then s
      else if ws.isEmpty then
        (applySettings fuel (if words.isEmpty then s.done 0 else s) settings).settle
      else
        let vars := s.vars
        let s := runWords fuel (applySettings fuel s settings) ws
        (if settings.isEmpty then s else { s with vars }).settle
    | .group body => runItems fuel s body
    | .subshell body => (s.rejoin (runPart fuel s body)).settle
    | .define name body =>
      { s with
        functions := (name, body) :: s.functions.filter fun f => f.1 != name
        status := 0 }
    | .choose branches otherwise => runBranches fuel s branches otherwise
    | .loop succeeds test body => runLoop fuel s succeeds test body
    | .each name words body =>
      let (s, ws) := expandWords fuel s words
      runEach fuel (s.done 0) name ws body
    | .select w arms =>
      let (s, fs) := expand fuel s w
      runArms fuel (s.done 0) (joinFragments fs) arms
    | .redirected c rs =>
      if rs.isEmpty then runCommand fuel s c
      else
        let opened := redirect fuel s rs
        let stays := match c with
          | .simple _ [] [[.text "exec" false]] => true
          | _ => false
        if opened.status != 0 then
          let closed := { opened with sinks := s.sinks, input := s.input }
          if stays then closed.leave else closed.settle
        else
          if stays then opened
          else
            let ran := runCommand fuel { opened with status := s.status } c
            { ran with sinks := s.sinks, input := s.input }

def runBranches : Nat → State → List (Script × Script) → Script → State
  | 0, s, _, _ => s
  | fuel + 1, s, [], otherwise => runItems fuel (s.done 0) otherwise
  | fuel + 1, s, (test, body) :: rest, otherwise =>
    let s := runTest fuel s test
    if !s.isOn then s
    else if s.status == 0 then runItems fuel s body
    else runBranches fuel s rest otherwise

def runLoop : Nat → State → Bool → Script → Script → State
  | 0, s, _, _, _ => s
  | fuel + 1, s, succeeds, test, body =>
    let s := runTest fuel s test
    if !s.isOn then s
    else if (s.status == 0) != succeeds then s.done 0
    else
      let (on, s) := afterBody (runBody fuel s body)
      if on then runLoop fuel s succeeds test body else s

def runEach : Nat → State → String → List String → Script → State
  | 0, s, _, _, _ => s
  | _ + 1, s, _, [], _ => s
  | fuel + 1, s, name, w :: ws, body =>
    let (on, s) := afterBody (runBody fuel (s.setVar name w) body)
    if on then runEach fuel s name ws body else s

def runBody : Nat → State → Script → State
  | 0, s, _ => s
  | fuel + 1, s, body =>
    { runItems fuel { s with loops := s.loops + 1 } body with loops := s.loops }

def runArms : Nat → State → String → List (List Word × Script) → State
  | 0, s, _, _ => s
  | _ + 1, s, _, [] => s
  | fuel + 1, s, text, (patterns, body) :: rest =>
    let (s, fits) := anyFits fuel s text patterns
    if fits then runItems fuel s body else runArms fuel s text rest

def anyFits : Nat → State → String → List Word → State × Bool
  | 0, s, _, _ => (s, false)
  | _ + 1, s, _, [] => (s, false)
  | fuel + 1, s, text, w :: rest =>
    let (s, fs) := expand fuel s w
    if (patternOf fs).matches text then (s, true) else anyFits fuel s text rest

/-- Runs commands joined by pipes, each on the output of the one before. -/
def runPiped : Nat → State → List Command → State
  | 0, s, _ => s
  | _ + 1, s, [] => s
  | fuel + 1, s, [c] => runCommand fuel s c
  | fuel + 1, s, c :: rest =>
    let part := runCommand fuel { s.apart with acts := [], sinks := (1, .buffer) :: s.sinks } c
    let (bytes, acts) := State.buffered part.acts.reverse
    let s := s.rejoin { part with acts := acts.reverse ++ s.acts }
    (s.rejoin (runPiped fuel { s.apart with input := bytes } rest)).settle

def runPipeline : Nat → State → Pipeline → State
  | 0, s, _ => s
  | fuel + 1, s, .mk negated commands =>
    if negated then
      let ran := runPiped fuel { s with tested := true } commands
      let ran := { ran with tested := s.tested }
      if ran.isOn then ran.done (if ran.status == 0 then 1 else 0) else ran
    else runPiped fuel s commands

/-- Runs a pipeline, of which the failure is looked at if others are joined to it, and those. -/
def runJoined : Nat → State → Pipeline → List (Bool × Pipeline) → State
  | 0, s, _, _ => s
  | fuel + 1, s, p, [] => runPipeline fuel s p
  | fuel + 1, s, p, rest =>
    let ran := runPipeline fuel { s with tested := true } p
    runOthers fuel { ran with tested := s.tested } rest

def runOthers : Nat → State → List (Bool × Pipeline) → State
  | 0, s, _ => s
  | _ + 1, s, [] => s
  | fuel + 1, s, (both, p) :: rest =>
    if s.isOn && (s.status == 0) == both then runJoined fuel s p rest else runOthers fuel s rest

def runItem : Nat → State → Item → State
  | 0, s, _ => s
  | fuel + 1, s, .mk first rest background =>
    if background then
      let part := runJoined fuel { s.apart with acts := [], input := [] } first rest
      let holds (sink : Sink) := s.sink 1 == sink || s.sink 2 == sink
      let s := { s with files := { part.files with here := s.files.here } }
      (s.act (.fork part.acts.reverse (holds .out) (holds .err))).done 0
    else
      let s := runJoined fuel s first rest
      runPending fuel { s with pending := [] } s.pending

def runItems : Nat → State → Script → State
  | 0, s, _ => s
  | _ + 1, s, [] => s
  | fuel + 1, s, i :: rest =>
    let s := runItem fuel s i
    if s.isOn then runItems fuel s rest else s

def runTest : Nat → State → Script → State
  | 0, s, _ => s
  | fuel + 1, s, test => { runItems fuel { s with tested := true } test with tested := s.tested }

def runPending : Nat → State → List String → State
  | 0, s, _ => s
  | _ + 1, s, [] => s
  | fuel + 1, s, action :: rest =>
    let ran := runText fuel s action
    runPending fuel (if ran.isOn then ran.done s.status else ran) rest

def runPart : Nat → State → Script → State
  | 0, s, _ => s
  | fuel + 1, s, body => runFarewell fuel (runItems fuel s.apart body)

/-- Does what is laid down for the end; an exit in it decides on the status. -/
def runFarewell : Nat → State → State
  | 0, s => s
  | fuel + 1, s =>
    match s.traps.lookup 0 with
    | none => s
    | some action =>
      let ran := runText fuel { s with traps := [], course := .on } action
      if ran.isOn then (ran.done s.status).leave else ran

/-- Runs commands given as text, up to the line with the first fault, which ends the script. -/
def runText : Nat → State → String → State
  | 0, s, _ => s
  | fuel + 1, s, text =>
    let (script, fault) := readScript text
    let s := runItems fuel s script
    match fault with
    | some f =>
      if s.isOn then ({ s with line := f.line }.report f.cause.message 2).leave else s
    | none => s

def runScript : Nat → State → String → State
  | 0, s, _ => s
  | fuel + 1, s, text =>
    runFarewell fuel (runText fuel
      { s.apart with
        vars := ("PWD", State.placeText s.files.here) :: s.vars.filter fun v => v.1 != "PWD"
        functions := []
        strict := false
        strictNames := false
        tested := false
        depth := 0
        loops := 0
        line := 1
        course := .on } text)

end

def enough : Nat := 20000

/-- What starting a program comes to: its acts, and the state it leaves. -/
def launch (s : State) (name : String) (args : List String) : Except FileError State :=
  match findProgram s.files s.path name with
  | .error e => .error e
  | .ok program =>
    match program with
    | .file path _ contents =>
      match interpreter? contents with
      | none => .error .notExecutable
      | some (interpreter, extra) =>
        match findProgram s.files s.path interpreter with
        | .error e => .error e
        | .ok program => .ok (runProgram enough s program interpreter (extra ++ path :: args))
    | program => .ok (runProgram enough s program name args)

end StepFlow.Shell
