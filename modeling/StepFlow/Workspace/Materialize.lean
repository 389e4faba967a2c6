import StepFlow.Compile.Basic
import StepFlow.Compile.StepModule
import StepFlow.Workspace.FileTree

/-!
What has to be on disk before a program runs, below the directory of its app:

    index.js                   the program
    components/<id>/code.js    the source of a step
    components/<id>/index.js   its wrapper
    global.json                the registry, which is kept if it is there

The work is a list of tasks that is carried out until one fails. Groups are installed by others
and only looked for.
-/
namespace StepFlow.Workspace
open Compile

inductive Error where
  | dependencyMissing (group version path : String)
  | invalidName (name : String)
  | file (path : String) (cause : FileError)
  deriving DecidableEq, Repr

def Error.message : Error → String
  | dependencyMissing group version path =>
    "dependency missing: group '" ++ group ++ "' v" ++ version ++ " not found at " ++ path
  | invalidName name => "invalid name '" ++ name ++ "': must be a single path segment"
  | file path cause => "failed to write " ++ path ++ ": " ++ cause.message

/-- A fresh file is kept if anything is there. -/
inductive Task where
  | checkName (name : String)
  | checkGroup (group : GroupDependency)
  | directory (path : String)
  | file (path contents : String)
  | freshFile (path contents : String)
  deriving Repr

def programFile : String := "index.js"

namespace Task

def writing (t : FileTree) (path contents : String) : FileTree × Option Error :=
  match t.write path contents with
  | .ok t => (t, none)
  | .error e => (t, some (.file path e))

def run (t : FileTree) : Task → FileTree × Option Error
  | checkName name => if isSegment name then (t, none) else (t, some (.invalidName name))
  | checkGroup group =>
    if t.contains group.path then (t, none)
    else (t, some (.dependencyMissing group.group group.version group.path))
  | directory path =>
    let (t, refusal) := t.makeDirectories path
    (t, refusal.map (.file path))
  | file path contents => writing t path contents
  | freshFile path contents => if t.contains path then (t, none) else writing t path contents

def runAll (t : FileTree) : List Task → FileTree × Option Error
  | [] => (t, none)
  | task :: rest =>
    match task.run t with
    | (t, none) => runAll t rest
    | (t, some e) => (t, some e)

end Task

def stepTasks (appDir : String) : String × InlineCode → List Task
  | (id, code) =>
    let dir := joinPath (joinPath appDir componentsDir) id
    [.checkName id, .directory dir, .file (joinPath dir codeFile) code.source,
      .file (joinPath dir indexFile) (renderStepModule code.info)]

def tasks (root app : String) (program : Program) : List Task :=
  let appDir := joinPath root app
  .checkName app :: program.manifest.groups.map .checkGroup ++
    [.directory appDir, .file (joinPath appDir programFile) program.source] ++
    program.manifest.inlineCode.flatMap (stepTasks appDir) ++
    [.freshFile (joinPath appDir globalFile) "\x7b\x7d"]

/-- Puts a program in place; the answer is the directory that it runs in. -/
def materialize (t : FileTree) (root app : String) (program : Program) :
    FileTree × Except Error String :=
  match Task.runAll t (tasks root app program) with
  | (t, none) => (t, .ok (joinPath root app))
  | (t, some e) => (t, .error e)

end StepFlow.Workspace
