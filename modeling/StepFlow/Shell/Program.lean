import StepFlow.Shell.Programs
import StepFlow.Text.Basic

/-!
What a name of a program leads to: a known tool, or an executable file, which starts with the name
of its interpreter.
-/
namespace StepFlow.Shell
open Workspace

inductive Program where
  | tool (t : Tool)
  | shell
  | runner
  | file (path : String) (place : Place) (contents : String)

def shells : List String := ["sh", "dash", "bash"]

def toolPlaces : List Place := [["bin"], ["usr", "bin"]]

def knownProgram? (name : String) : Option Program :=
  if shells.contains name then some .shell
  else if name == "env" then some .runner
  else (programs.lookup name).map .tool

def fileProgram (path : String) (place : Place) : Entry → Except FileError Program
  | .directory => .error .permission
  | .file contents executable =>
    if executable then .ok (.file path place contents) else .error .permission

/-- Looks a program up: by its path, or else in directories and among the known tools. -/
def findProgram (t : FileTree) (path : List Place) (name : String) : Except FileError Program :=
  if name.toList.contains '\x00' then .error .nulByte
  else if name.toList.contains '/' then
    match t.find name with
    | .ok (place, entry) => fileProgram name place entry
    | .error e =>
      let segments := segments name
      match segments.getLast?.bind knownProgram? with
      | some p =>
        if isAbsolute name && toolPlaces.contains segments.dropLast then .ok p else .error e
      | none => .error e
  else
    let there := path.findSome? fun dir => (t.get? (dir ++ [name])).map fun e => (dir ++ [name], e)
    match there, knownProgram? name with
    | some (place, .file contents true), _ =>
      .ok (.file (State.placeText place) place contents)
    | _, some p => .ok p
    | some _, none => .error .permission
    | none, none => .error .notFound

def interpreter? (contents : String) : Option (String × List String) :=
  match contents.toList with
  | '#' :: '!' :: rest =>
    let line := Text.trim (rest.takeWhile (· != '\n'))
    let name := line.takeWhile fun c => c != ' ' && c != '\t'
    let arg := Text.trim (line.drop name.length)
    some (String.ofList name, if arg.isEmpty then [] else [String.ofList arg])
  | _ => none

end StepFlow.Shell
